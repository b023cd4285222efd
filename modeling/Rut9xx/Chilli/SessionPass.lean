import Mathlib.Tactic.SplitIfs
import Rut9xx.Chilli.SessionAudit

namespace Rut9xx.Chilli.Session

/-! # Who passes

The connection below passes the traffic of a client in one state only.  Whatever happens, this is the
state of a client whose session is authenticated, and after a check of one that has passed no limit. -/

def AppConn.Passes (conn : AppConn) : Prop := ∃ link ∈ conn.dnlink, link.authstate = .pass

def Guarded (conn : AppConn) : Prop := conn.Passes → conn.state.authenticated = true

/-- Every limit that is set holds, those of the user with what the database has of earlier sessions. -/
structure Within (clock : Clock) (conn : AppConn) : Prop where
  time : conn.params.sessiontimeout ≠ 0 →
    (mainclockDiffu clock.now conn.state.startTime).toUInt64 ≤ conn.params.sessiontimeout
  unexpired : conn.params.expiration ≠ 0 →
    conn.state.authMode = authDynUser ∨ conn.state.authMode = authSmsUser →
      (mainclockDiffu clock.now conn.state.startTime + conn.state.userTime).toUInt64 ≤
        conn.params.expiration
  before : conn.params.sessionterminatetime ≠ 0 → clock.rt ≤ conn.params.sessionterminatetime
  busy : conn.params.idletimeout ≠ 0 →
    mainclockDiffu clock.now conn.state.lastUpTime ≤ conn.params.idletimeout
  input : conn.params.maxinputoctets ≠ 0 →
    conn.state.usage.inputOctets ≤ conn.params.maxinputoctets
  output : conn.params.maxoutputoctets ≠ 0 →
    conn.state.usage.outputOctets ≤ conn.params.maxoutputoctets
  total : conn.params.maxtotaloctets ≠ 0 →
    conn.state.usage.inputOctets + conn.state.usage.outputOctets ≤ conn.params.maxtotaloctets
  totalTime : conn.params.sessiontimeout ≠ 0 →
    (conn.history.sessiontime + mainclockDiffu clock.now conn.state.startTime).toUInt64 ≤
      conn.params.sessiontimeout
  totalInput : conn.params.maxinputoctets ≠ 0 →
    conn.state.usage.inputOctets + conn.history.inputOctets ≤ conn.params.maxinputoctets
  totalOutput : conn.params.maxoutputoctets ≠ 0 →
    conn.state.usage.outputOctets + conn.history.outputOctets ≤ conn.params.maxoutputoctets

section Connection

variable {options : SessionOptions} {clock : Clock} {history : SessionHistory} {conn after : AppConn}

theorem Guarded.setAuthstate {authstate : AuthState} (other : authstate ≠ .pass) :
    Guarded (conn.setAuthstate authstate) := by
  rintro ⟨link, member, passes⟩
  obtain ⟨old, -, rfl⟩ := Option.mem_map.mp member
  exact absurd passes other

/-- What is neither the link nor the authentication may change. -/
theorem Guarded.congr (guarded : Guarded conn) (link : after.dnlink = conn.dnlink)
    (authenticated : after.state.authenticated = conn.state.authenticated) : Guarded after := by
  rintro ⟨found, member, passes⟩
  rw [link] at member
  exact authenticated.trans (guarded ⟨found, member, passes⟩)

theorem Guarded.authenticated (authenticated : conn.state.authenticated = true) : Guarded conn :=
  fun _ => authenticated

theorem dnprotTerminate_guarded : Guarded (dnprotTerminate conn) := by
  unfold dnprotTerminate
  dsimp only
  split
  · exact Guarded.setAuthstate (by decide)
  · exact Guarded.setAuthstate (by decide)

theorem terminateAppconn_guarded (guarded : Guarded conn) (cause : UInt32) :
    Guarded (terminateAppconn clock conn cause).1 := by
  unfold terminateAppconn
  split
  · exact dnprotTerminate_guarded.congr rfl rfl
  · exact guarded

theorem dnprotAccept_guarded (guarded : Guarded conn) :
    Guarded (dnprotAccept clock history conn).1 := by
  unfold dnprotAccept
  split
  · exact guarded
  · split
    · exact guarded
    · rename_i linked accepted
      dsimp only
      cases auth : linked.has requireUamAuth with
      | true =>
          simp only [Bool.or_true, if_true]
          split
          · exact (Guarded.setAuthstate (by decide)).congr rfl rfl
          · rename_i no
            exact absurd auth no
      | false =>
          split
          · split
            · exact (Guarded.setAuthstate (by decide)).congr rfl rfl
            · exact Guarded.authenticated rfl
          · split
            · rename_i yes
              rw [auth] at yes
              cases yes
            · exact Guarded.authenticated rfl

theorem dnprotReject_guarded (guarded : Guarded conn) : Guarded (dnprotReject options conn) := by
  unfold dnprotReject
  split
  · split
    · exact (Guarded.setAuthstate (by decide)).congr rfl rfl
    · exact (Guarded.setAuthstate (by decide)).congr rfl rfl
  · exact guarded

theorem upprotGetip_guarded (guarded : Guarded conn) (granted : Option UInt32) :
    Guarded (upprotGetip options clock history granted conn).1 := by
  unfold upprotGetip
  split
  · exact dnprotAccept_guarded guarded
  · exact dnprotReject_guarded guarded
  · exact dnprotAccept_guarded (guarded.congr rfl rfl)

theorem terminateFor_guarded (guarded : Guarded conn) (causes : Causes) :
    Guarded (terminateFor clock conn causes).1 := by
  have noted : Guarded { conn with state := { conn.state with terminateCauseUi := causes.1 } } :=
    guarded.congr rfl rfl
  exact terminateAppconn_guarded noted causes.2

theorem count_guarded (guarded : Guarded conn) (usage : Usage) (datagram : Datagram) :
    Guarded (count usage datagram conn).1 := by
  unfold count
  split
  · exact guarded.congr rfl rfl
  · exact guarded

theorem chilliAcctFromsub_guarded (guarded : Guarded conn) (datagram : Datagram) :
    Guarded (chilliAcctFromsub options clock datagram conn).1 := by
  unfold chilliAcctFromsub
  split
  · exact guarded
  · exact (count_guarded guarded _ datagram).congr rfl rfl

theorem chilliAcctTosub_guarded (guarded : Guarded conn) (datagram : Datagram) :
    Guarded (chilliAcctTosub options clock datagram conn).1 := by
  unfold chilliAcctTosub
  split
  · exact guarded
  · exact (count_guarded guarded _ datagram).congr rfl rfl

theorem macAuthenticate_guarded (guarded : Guarded conn) (request : Request) :
    Guarded (macAuthenticate options clock history request conn).1.1 := by
  have opened : Guarded { conn with dnprot := .mac } := guarded.congr rfl rfl
  unfold macAuthenticate
  dsimp only
  split
  · split
    · exact upprotGetip_guarded opened request.granted
    · exact guarded.congr rfl rfl
  · split
    · exact guarded.congr rfl rfl
    · exact guarded

theorem dynamicIp_guarded (guarded : Guarded conn) {request : Request} {allocate : Bool}
    (allocated : dynamicIp request allocate conn = some after) : Guarded after := by
  unfold dynamicIp at allocated
  split at allocated
  · cases allocated
    exact guarded
  · split at allocated
    · obtain ⟨ip, -, rfl⟩ := Option.map_eq_some_iff.mp allocated
      exact guarded.congr rfl rfl
    · cases allocated

theorem addressed_guarded (guarded : Guarded conn) : Guarded (addressed options clock conn) := by
  have first : Guarded (if conn.state.authenticated then conn else conn.setAuthstate .dnat) := by
    split
    · exact guarded
    · exact Guarded.setAuthstate (by decide)
  unfold addressed
  dsimp only
  generalize (if conn.state.authenticated then conn else conn.setAuthstate .dnat) = checked at first ⊢
  split <;> split <;> exact first.congr rfl rfl

theorem cbDhcpRequest_guarded (guarded : Guarded conn) (request : Request) :
    Guarded (cbDhcpRequest options clock history request conn).1 := by
  have asked : Guarded { conn with reqip := request.addr.getD 0 } := guarded.congr rfl rfl
  have placed : Guarded (macAuthenticate options clock history request
      { conn with reqip := request.addr.getD 0 }).1.1 := macAuthenticate_guarded asked request
  unfold cbDhcpRequest
  dsimp only
  split
  · exact placed
  · rename_i allocated
    exact addressed_guarded (dynamicIp_guarded placed allocated)

theorem uamPrepare_guarded (guarded : Guarded conn) (msg : UamMsg) :
    Guarded (uamPrepare clock msg conn) := by
  have told : Guarded (msg.setRedir conn) := by
    unfold UamMsg.setRedir
    split
    · exact guarded.congr rfl rfl
    · exact guarded
  unfold uamPrepare
  dsimp only
  split
  · split
    · exact told.congr rfl rfl
    · exact told.congr rfl rfl
  · exact guarded

theorem uamLogout_guarded : Guarded (uamLogout clock conn).1 := by
  unfold uamLogout
  generalize (if conn.state.authenticated then _ else _ : Outcome) = closed
  obtain ⟨closed, observed⟩ := closed
  exact (Guarded.setAuthstate (by decide)).congr rfl rfl

theorem uamAbort_guarded : Guarded (uamAbort clock conn).1 := by
  have noted : Guarded
      { conn.setAuthstate .dnat with uamabort := true, state := { conn.state with uamtime := 0 } } :=
    (Guarded.setAuthstate (by decide)).congr rfl rfl
  exact terminateAppconn_guarded noted terminateCauseUserRequest

theorem uamMsg_guarded (guarded : Guarded conn) (granted : Option UInt32) (msg : UamMsg) :
    Guarded (uamMsg options clock history granted msg conn).1 := by
  have prepared : Guarded (uamPrepare clock msg conn) := uamPrepare_guarded guarded msg
  unfold uamMsg
  split
  · exact guarded
  · dsimp only
    split
    · split
      · exact prepared.congr rfl rfl
      · exact upprotGetip_guarded prepared granted
    · exact uamLogout_guarded
    · exact uamAbort_guarded
    · exact prepared.congr rfl rfl
    · exact prepared

theorem perform_guarded (guarded : Guarded conn) (action : Action) :
    Guarded (perform options clock action conn).1 := by
  cases action with
  | request history request => exact cbDhcpRequest_guarded guarded request
  | configure params => exact guarded.congr rfl rfl
  | accept history => exact dnprotAccept_guarded guarded
  | getip history granted => exact upprotGetip_guarded guarded granted
  | reject => exact dnprotReject_guarded guarded
  | terminate cause => exact terminateAppconn_guarded guarded cause
  | uam history granted msg => exact uamMsg_guarded guarded granted msg
  | fromsub datagram => exact chilliAcctFromsub_guarded guarded datagram
  | tosub datagram => exact chilliAcctTosub_guarded guarded datagram
  | block => exact (Guarded.setAuthstate (by decide)).congr rfl rfl

/-! ## Checked -/

theorem Within.of_unreached (limit : limitReached clock conn = none)
    (total : totalReached clock conn = none) : Within clock conn := by
  unfold limitReached at limit
  unfold totalReached at total
  dsimp only at limit total
  split_ifs at limit with time expired terminate idle input output octets
  split_ifs at total with totalTime totalInput totalOutput
  exact {
    time := fun set => UInt64.not_lt.mp fun past => time ⟨set, past⟩
    unexpired := fun set mode => UInt64.not_lt.mp fun past => expired ⟨set, mode, past⟩
    before := fun set => by
      by_contra past
      exact terminate ⟨set, by omega⟩
    busy := fun set => UInt32.not_lt.mp fun past => idle ⟨set, past⟩
    input := fun set => UInt64.not_lt.mp fun past => input ⟨set, past⟩
    output := fun set => UInt64.not_lt.mp fun past => output ⟨set, past⟩
    total := fun set => UInt64.not_lt.mp fun past => octets ⟨set, past⟩
    totalTime := fun set => UInt64.not_lt.mp fun past => totalTime ⟨set, past⟩
    totalInput := fun set => UInt64.not_lt.mp fun past => totalInput ⟨set, past⟩
    totalOutput := fun set => UInt64.not_lt.mp fun past => totalOutput ⟨set, past⟩ }

theorem terminateFor_unauthenticated (causes : Causes) :
    (terminateFor clock conn causes).1.state.authenticated = false := by
  unfold terminateFor terminateAppconn
  split
  case isTrue => exact congrArg SessionState.authenticated dnprotTerminate_state
  case isFalse closed => simpa using closed

theorem Guarded.blocked (guarded : Guarded conn) (closed : conn.state.authenticated = false) :
    ¬ conn.Passes := fun passes => by
  rw [guarded passes] at closed
  cases closed

theorem checkLimits_passes (guarded : Guarded conn) :
    Guarded (checkLimits clock conn).1 ∧
      ((checkLimits clock conn).1.Passes → limitReached clock (checkLimits clock conn).1 = none) := by
  unfold checkLimits
  split
  case h_1 causes _ =>
    have stopped := @terminateFor_guarded clock conn guarded causes
    exact ⟨stopped, fun passes => absurd passes (stopped.blocked (terminateFor_unauthenticated causes))⟩
  case h_2 limit =>
    split
    · exact ⟨guarded.congr rfl rfl, fun _ => limit⟩
    · exact ⟨guarded, fun _ => limit⟩

theorem checkTotals_passes (guarded : Guarded conn)
    (limit : conn.Passes → limitReached clock conn = none) :
    Guarded (checkTotals clock conn).1 ∧
      ((checkTotals clock conn).1.Passes → Within clock (checkTotals clock conn).1) := by
  unfold checkTotals
  split
  case h_1 causes _ =>
    have stopped := @terminateFor_guarded clock conn guarded causes
    exact ⟨stopped, fun passes => absurd passes (stopped.blocked (terminateFor_unauthenticated causes))⟩
  case h_2 total => exact ⟨guarded, fun passes => Within.of_unreached (limit passes) total⟩

theorem sessionInterval_passes (guarded : Guarded conn) :
    Guarded (sessionInterval clock conn).1 ∧
      ((sessionInterval clock conn).1.Passes → Within clock (sessionInterval clock conn).1) := by
  unfold sessionInterval
  split
  case isTrue =>
    obtain ⟨checked, limit⟩ := @checkLimits_passes clock conn guarded
    exact checkTotals_passes checked limit
  case isFalse open' => exact ⟨guarded, fun passes => absurd (guarded passes) open'⟩

theorem checkconn_passes (guarded : Guarded conn) :
    Guarded (checkconn clock conn).1 ∧
      ((checkconn clock conn).1.Passes → Within clock (checkconn clock conn).1) := by
  unfold checkconn
  split
  case isTrue unlinked =>
    refine ⟨guarded, ?_⟩
    rintro ⟨link, member, -⟩
    rw [Option.isNone_iff_eq_none.mp unlinked] at member
    cases member
  case isFalse => exact sessionInterval_passes guarded

end Connection

/-! ## Runs -/

section Runs

variable {options : SessionOptions} {pool : Pool} {daemon : Daemon} {events : List Event}

def Pool.Guarded (pool : Pool) : Prop := ∀ conn ∈ pool.used, Session.Guarded conn

theorem cbDhcpConnect_guarded (guarded : pool.Guarded) (clock : Clock) (isReserved : Bool) :
    (cbDhcpConnect options clock isReserved pool).Guarded := by
  unfold cbDhcpConnect
  split
  · exact guarded
  · intro conn member
    rcases List.mem_cons.mp member with rfl | old
    · rintro ⟨link, own, passes⟩
      cases Option.some.inj own
      cases passes
    · exact guarded conn old

theorem sessionDisconnect_guarded (guarded : pool.Guarded) (clock : Clock) (unit : Nat)
    (termCause : UInt32) : (sessionDisconnect clock unit termCause pool).1.Guarded := by
  unfold sessionDisconnect
  split
  · exact guarded
  · have terminated : (pool.change (onUnit clock unit
        (fun conn => terminateAppconn clock conn (disconnectCause termCause conn))
        pool.used)).1.Guarded := by
      intro after member
      rcases onUnit_mem member with old | ⟨conn, listed, rfl⟩
      · exact guarded after old
      · exact terminateAppconn_guarded (guarded conn listed) _
    dsimp only
    split
    · exact terminated
    · exact fun conn member => terminated conn (List.mem_filter.mp member).1

theorem step_guarded (guarded : daemon.pool.Guarded) (event : Event) :
    (step options daemon event).1.pool.Guarded := by
  rw [step_pool]
  cases event with
  | tick clock => exact guarded
  | connect isReserved => exact cbDhcpConnect_guarded guarded daemon.clock isReserved
  | disconnect unit termCause => exact sessionDisconnect_guarded guarded daemon.clock unit termCause
  | check =>
      intro after member
      obtain ⟨conn, listed, rfl⟩ := onEach_mem member
      exact (checkconn_passes (guarded conn listed)).1
  | act unit action =>
      intro after member
      rcases onUnit_mem member with old | ⟨conn, listed, rfl⟩
      · exact guarded after old
      · exact perform_guarded (guarded conn listed) action

theorem run_guarded (guarded : daemon.pool.Guarded) : (run options daemon events).1.pool.Guarded := by
  induction events generalizing daemon with
  | nil => exact guarded
  | cons event events ih =>
      rw [run_cons]
      exact ih (step_guarded guarded event)

end Runs

end Rut9xx.Chilli.Session
