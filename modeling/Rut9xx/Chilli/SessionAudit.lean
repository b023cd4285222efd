import Mathlib.Logic.Function.Basic
import Rut9xx.Chilli.Session

namespace Rut9xx.Chilli.Session

/-! # The accounting of whole runs

Who receives the accounting requests keeps a ledger of the open sessions and adds up what passes.  A
request that does not fit what the ledger has is not accepted. -/

structure OpenSession where
  id : SessionId
  since : Int
  usage : Usage
  deriving DecidableEq

def settle (time : Int) (opened : Option OpenSession) : Observed → Option (Option OpenSession)
  | .started id => some (some ⟨id, time, .zero⟩)
  | .updated id sent =>
      match opened with
      | some session =>
          if id = session.id ∧ sent = counters session.usage (mainclockDiffu time session.since) then
            some opened
          else none
      | none => none
  | .stopped id sent _ =>
      match opened with
      | some session =>
          if id = session.id ∧ sent = counters session.usage (mainclockDiffu time session.since) then
            some none
          else none
      | none => none
  | .passed usage => some (opened.map fun session => { session with usage := session.usage.add usage })

def settleAll (time : Int) : Option OpenSession → List Observed → Option (Option OpenSession)
  | opened, [] => some opened
  | opened, first :: rest => (settle time opened first).bind fun opened => settleAll time opened rest

abbrev Ledger := Nat → Option OpenSession

def Ledger.empty : Ledger := fun _ => none

def audit (ledger : Ledger) : List Entry → Option Ledger
  | [] => some ledger
  | entry :: entries =>
      (settle entry.time (ledger entry.unit) entry.observed).bind fun opened =>
        audit (Function.update ledger entry.unit opened) entries

/-- The octets of a request are those of the ledger. -/
theorem counters_octets (octets : UInt64) :
    (octets >>> 32).toUInt32.toNat * 2 ^ 32 + octets.toUInt32.toNat = octets.toNat := by
  have below := octets.toNat_lt
  rw [UInt64.toNat_toUInt32, UInt64.toNat_toUInt32, UInt64.toNat_shiftRight, Nat.shiftRight_eq_div_pow]
  have shift : (32 : UInt64).toNat % 64 = 32 := rfl
  rw [shift]
  omega

/-! ## One connection -/

def AppConn.openSession (conn : AppConn) : Option OpenSession :=
  if conn.state.authenticated && !conn.has noAccounting then
    some ⟨conn.state.sessionid, conn.state.startTime, conn.state.usage⟩
  else none

structure Settled (time : Int) (conn : AppConn) (outcome : Outcome) : Prop where
  unit : outcome.1.unit = conn.unit
  settles : settleAll time conn.openSession outcome.2 = some outcome.1.openSession

section Connection

variable {options : SessionOptions} {clock : Clock} {time : Int} {history : SessionHistory}
  {conn after : AppConn} {first second : List Observed}

theorem settleAll_append (opened : Option OpenSession) :
    settleAll time opened (first ++ second) =
      (settleAll time opened first).bind fun opened => settleAll time opened second := by
  induction first generalizing opened with
  | nil => rfl
  | cons one rest ih =>
      rw [List.cons_append, settleAll, settleAll, Option.bind_assoc]
      exact congrArg _ (funext fun opened => ih opened)

/-- Nothing that the accounting depends on is changed. -/
structure Kept (conn after : AppConn) : Prop where
  unit : after.unit = conn.unit
  session : after.openSession = conn.openSession

theorem Kept.settled (kept : Kept conn after) : Settled time conn (after, []) :=
  ⟨kept.unit, congrArg some kept.session.symm⟩

theorem Settled.kept {outcome : Outcome} (settled : Settled time conn outcome)
    (kept : Kept outcome.1 after) : Settled time conn (after, outcome.2) :=
  ⟨kept.unit.trans settled.unit, settled.settles.trans (congrArg some kept.session.symm)⟩

theorem Kept.settled_after {outcome : Outcome} (kept : Kept conn after)
    (settled : Settled time after outcome) : Settled time conn outcome :=
  ⟨settled.unit.trans kept.unit, kept.session ▸ settled.settles⟩

theorem Settled.trans {outcome next : Outcome} (settled : Settled time conn outcome)
    (then' : Settled time outcome.1 next) : Settled time conn (next.map id (outcome.2 ++ ·)) := by
  refine ⟨then'.unit.trans settled.unit, ?_⟩
  change settleAll time _ (outcome.2 ++ next.2) = _
  rw [settleAll_append, settled.settles]
  exact then'.settles

theorem AppConn.openSession_none (closed : conn.state.authenticated = false) :
    conn.openSession = none := by
  simp [AppConn.openSession, closed]

theorem AppConn.openSession_authenticated (authenticated : conn.state.authenticated = true) :
    conn.openSession =
      if conn.has noAccounting then none
      else some ⟨conn.state.sessionid, conn.state.startTime, conn.state.usage⟩ := by
  cases counted : conn.has noAccounting <;> simp [AppConn.openSession, authenticated, counted]

/-- A flag survives when others are cleared. -/
theorem and_complement {flags cleared flag : UInt16} (other : ~~~cleared &&& flag = flag) :
    flags &&& ~~~cleared &&& flag = flags &&& flag := by
  rw [UInt16.and_assoc, other]

/-! ## The requests -/

theorem acctReq_start (authenticated : conn.state.authenticated = true) {opened : Option OpenSession}
    (silent : conn.has noAccounting = true → opened = none) :
    settleAll clock.now opened (acctReq clock history conn .start).2 =
      some (acctReq clock history conn .start).1.openSession := by
  have now := @AppConn.openSession_authenticated (acctReq clock history conn .start).1 authenticated
  change _ = if conn.has noAccounting then none
    else some (OpenSession.mk conn.state.sessionid clock.now .zero) at now
  change settleAll clock.now opened
    (if conn.has noAccounting then [] else [.started conn.state.sessionid]) = _
  rw [now]
  cases counted : conn.has noAccounting with
  | true => exact congrArg some (silent counted)
  | false => rfl

theorem acctReq_interim (authenticated : conn.state.authenticated = true) :
    Settled clock.now conn (acctReq clock history conn .interimUpdate) := by
  have before := AppConn.openSession_authenticated authenticated
  refine ⟨rfl, ?_⟩
  change settleAll clock.now conn.openSession (if conn.has noAccounting then []
    else [.updated conn.state.sessionid (counters conn.state.usage
      (mainclockDiffu clock.now conn.state.startTime))]) = some conn.openSession
  cases counted : conn.has noAccounting with
  | true => rfl
  | false =>
      rw [before, counted]
      simp [settleAll, settle]

/-! ## Terminated -/

variable (history) in
theorem acctReq_stop {closed : AppConn} (authenticated : conn.state.authenticated = true)
    (id : closed.state.sessionid = conn.state.sessionid)
    (since : closed.state.startTime = conn.state.startTime)
    (usage : closed.state.usage = conn.state.usage)
    (counted : closed.has noAccounting = conn.has noAccounting) :
    settleAll clock.now conn.openSession (acctReq clock history closed .stop).2 = some none := by
  change settleAll clock.now conn.openSession (if closed.has noAccounting then []
    else [.stopped closed.state.sessionid (counters closed.state.usage
      (mainclockDiffu clock.now closed.state.startTime)) closed.state.terminateCause]) = some none
  rw [AppConn.openSession_authenticated authenticated, counted, id, since, usage]
  cases conn.has noAccounting with
  | true => rfl
  | false => simp [settleAll, settle]

theorem dnprotTerminate_state :
    (dnprotTerminate conn).state = { conn.state with authenticated := false } := by
  unfold dnprotTerminate AppConn.setAuthstate
  dsimp only
  split <;> split <;> rfl

theorem dnprotTerminate_unit : (dnprotTerminate conn).unit = conn.unit := by
  unfold dnprotTerminate AppConn.setAuthstate
  dsimp only
  split <;> split <;> rfl

theorem dnprotTerminate_counted :
    (dnprotTerminate conn).has noAccounting = conn.has noAccounting := by
  have kept : conn.params.flags &&& ~~~uamClearUrl &&& noAccounting = conn.params.flags &&& noAccounting :=
    and_complement (by decide)
  unfold dnprotTerminate AppConn.setAuthstate AppConn.has
  dsimp only
  split <;> split <;> simp [kept]

theorem terminateAppconn_settled (cause : UInt32) :
    Settled clock.now conn (terminateAppconn clock conn cause) := by
  unfold terminateAppconn
  split
  case isTrue authenticated =>
    refine ⟨dnprotTerminate_unit, ?_⟩
    have closed : (setSessionid clock (clearAppconn (acctReq clock (dnprotTerminate conn).history
        { dnprotTerminate conn with
          state := { (dnprotTerminate conn).state with terminateCause := cause } }
        .stop).1)).openSession = none :=
      AppConn.openSession_none (congrArg SessionState.authenticated dnprotTerminate_state)
    refine Eq.trans ?_ (congrArg some closed.symm)
    apply acctReq_stop (dnprotTerminate conn).history authenticated
    · simp [dnprotTerminate_state]
    · simp [dnprotTerminate_state]
    · simp [dnprotTerminate_state]
    · exact dnprotTerminate_counted
  case isFalse => exact ⟨rfl, rfl⟩

/-- The cause for the user interface is not part of the accounting. -/
theorem Kept.of_state {conn after : AppConn} (unit : after.unit = conn.unit)
    (authenticated : after.state.authenticated = conn.state.authenticated)
    (id : after.state.sessionid = conn.state.sessionid)
    (since : after.state.startTime = conn.state.startTime)
    (usage : after.state.usage = conn.state.usage)
    (counted : after.has noAccounting = conn.has noAccounting) : Kept conn after :=
  ⟨unit, by simp only [AppConn.openSession, authenticated, id, since, usage, counted]⟩

theorem terminateFor_settled (causes : Causes) :
    Settled clock.now conn (terminateFor clock conn causes) := by
  have noted : Kept conn
      { conn with state := { conn.state with terminateCauseUi := causes.1 } } := ⟨rfl, rfl⟩
  exact noted.settled_after (terminateAppconn_settled causes.2)

theorem checkLimits_settled (authenticated : conn.state.authenticated = true) :
    Settled clock.now conn (checkLimits clock conn) := by
  unfold checkLimits
  split
  · exact terminateFor_settled _
  · split
    · exact acctReq_interim authenticated
    · exact ⟨rfl, rfl⟩

theorem checkTotals_settled : Settled clock.now conn (checkTotals clock conn) := by
  unfold checkTotals
  split
  · exact terminateFor_settled _
  · exact ⟨rfl, rfl⟩

theorem sessionInterval_settled : Settled clock.now conn (sessionInterval clock conn) := by
  unfold sessionInterval
  split
  case isTrue authenticated => exact (checkLimits_settled authenticated).trans checkTotals_settled
  case isFalse => exact ⟨rfl, rfl⟩

/-! ## Accepted -/

theorem setAuthstate_kept (authstate : AuthState) : Kept conn (conn.setAuthstate authstate) :=
  ⟨rfl, rfl⟩

theorem acceptLink_kept (accepted : acceptLink conn = some after) : Kept conn after := by
  have kept : conn.params.flags &&& ~~~requireUamAuth &&& noAccounting =
      conn.params.flags &&& noAccounting := and_complement (by decide)
  unfold acceptLink at accepted
  split at accepted
  case h_1 =>
    cases accepted
    exact Kept.of_state rfl rfl rfl rfl rfl (by simp [AppConn.has, kept])
  case h_2 =>
    cases accepted
    split
    · exact ⟨rfl, rfl⟩
    · exact ⟨rfl, rfl⟩
  case h_3 =>
    cases accepted
    exact ⟨rfl, rfl⟩
  case h_4 => cases accepted

theorem authenticate_settled : Settled clock.now conn (authenticate clock history conn) := by
  refine ⟨rfl, ?_⟩
  apply acctReq_start rfl
  intro silent
  have counted : conn.has noAccounting = true := silent
  simp [AppConn.openSession, counted]

theorem cleared_reauth :
    Kept conn { conn with params :=
      { conn.params with flags := conn.params.flags &&& ~~~isUamReauth } } :=
  Kept.of_state rfl rfl rfl rfl rfl
    (by simp [AppConn.has, and_complement (show ~~~isUamReauth &&& noAccounting = noAccounting by decide)])

theorem dnprotAccept_settled : Settled clock.now conn (dnprotAccept clock history conn) := by
  unfold dnprotAccept
  split
  case isTrue => exact ⟨rfl, rfl⟩
  case isFalse =>
    split
    case h_1 => exact ⟨rfl, rfl⟩
    case h_2 linked accepted =>
      refine (acceptLink_kept accepted).settled_after ?_
      dsimp only
      split
      case isTrue =>
        refine (setAuthstate_kept .splash).settled_after ?_
        split
        · exact cleared_reauth.settled
        · exact authenticate_settled.kept cleared_reauth
      case isFalse =>
        split
        · exact cleared_reauth.settled
        · exact authenticate_settled.kept cleared_reauth

theorem dnprotReject_kept : Kept conn (dnprotReject options conn) := by
  unfold dnprotReject
  split
  · split
    · exact ⟨rfl, rfl⟩
    · exact ⟨rfl, rfl⟩
  · exact ⟨rfl, rfl⟩

theorem upprotGetip_settled (granted : Option UInt32) :
    Settled clock.now conn (upprotGetip options clock history granted conn) := by
  unfold upprotGetip
  split
  case h_1 => exact dnprotAccept_settled
  case h_2 => exact dnprotReject_kept.settled
  case h_3 ip _ =>
    have placed : Kept conn { conn with hisip := ip, uplink := some ip } := ⟨rfl, rfl⟩
    exact placed.settled_after dnprotAccept_settled

/-! ## Counted -/

theorem count_settled (usage : Usage) (datagram : Datagram) :
    Settled time conn (count usage datagram conn) := by
  unfold count
  split
  case isTrue counted =>
    have authenticated : conn.state.authenticated = true := by
      rw [Bool.and_eq_true] at counted
      exact counted.1
    refine ⟨rfl, ?_⟩
    have before := AppConn.openSession_authenticated authenticated
    have after := @AppConn.openSession_authenticated
      { conn with state := { conn.state with usage := conn.state.usage.add usage } } authenticated
    change settleAll time conn.openSession [.passed usage] = some _
    rw [after, before]
    change _ = some (if conn.has noAccounting then none else _)
    cases conn.has noAccounting <;> rfl
  case isFalse => exact ⟨rfl, rfl⟩

theorem chilliAcctFromsub_settled (datagram : Datagram) :
    Settled clock.now conn (chilliAcctFromsub options clock datagram conn) := by
  unfold chilliAcctFromsub
  split
  · exact ⟨rfl, rfl⟩
  · exact (count_settled _ datagram).kept ⟨rfl, rfl⟩

theorem chilliAcctTosub_settled (datagram : Datagram) :
    Settled clock.now conn (chilliAcctTosub options clock datagram conn) := by
  unfold chilliAcctTosub
  split
  · exact ⟨rfl, rfl⟩
  · exact (count_settled _ datagram).kept ⟨rfl, rfl⟩

/-! ## Requested -/

theorem macAuthenticate_settled (request : Request) :
    Settled clock.now conn (macAuthenticate options clock history request conn).1 := by
  unfold macAuthenticate
  dsimp only
  split
  · split
    · have opened : Kept conn { conn with dnprot := .mac } := ⟨rfl, rfl⟩
      exact opened.settled_after (upprotGetip_settled request.granted)
    · exact ⟨rfl, rfl⟩
  · split
    · exact ⟨rfl, rfl⟩
    · exact ⟨rfl, rfl⟩

theorem dynamicIp_kept {request : Request} {allocate : Bool}
    (allocated : dynamicIp request allocate conn = some after) : Kept conn after := by
  unfold dynamicIp at allocated
  split at allocated
  · cases allocated
    exact ⟨rfl, rfl⟩
  · split at allocated
    · obtain ⟨ip, -, placed⟩ := Option.map_eq_some_iff.mp allocated
      cases placed
      exact ⟨rfl, rfl⟩
    · cases allocated

theorem addressed_kept : Kept conn (addressed options clock conn) := by
  unfold addressed
  dsimp only
  split <;> split <;> split <;> exact ⟨rfl, rfl⟩

theorem Kept.trans {middle : AppConn} (kept : Kept conn middle) (then' : Kept middle after) :
    Kept conn after :=
  ⟨then'.unit.trans kept.unit, then'.session.trans kept.session⟩

theorem cbDhcpRequest_settled (request : Request) :
    Settled clock.now conn (cbDhcpRequest options clock history request conn) := by
  unfold cbDhcpRequest
  dsimp only
  have asked : Kept conn { conn with reqip := request.addr.getD 0 } := ⟨rfl, rfl⟩
  refine asked.settled_after ?_
  split
  · exact macAuthenticate_settled request
  · rename_i allocated
    exact (macAuthenticate_settled request).kept ((dynamicIp_kept allocated).trans addressed_kept)

/-! ## Messages of the portal -/

/-- Whether a session is accounted is not changed while it lasts; the portal logs out without a new
session id. -/
def Steady (conn : AppConn) : Action → Prop
  | .configure params =>
      conn.state.authenticated = true →
        params.flags &&& noAccounting = conn.params.flags &&& noAccounting
  | .uam _ _ msg =>
      conn.state.authenticated = true → msg.mtype = .logout → msg.newSessionid = false ∧
        ∀ params ∈ msg.params, params.flags &&& noAccounting = conn.params.flags &&& noAccounting
  | _ => True

theorem Kept.unauthenticated (unit : after.unit = conn.unit)
    (before : conn.state.authenticated = false) (still : after.state.authenticated = false) :
    Kept conn after :=
  ⟨unit, by rw [AppConn.openSession_none before, AppConn.openSession_none still]⟩

theorem configure_kept (params : SessionParams) (steady : Steady conn (.configure params)) :
    Kept conn { conn with params } := by
  cases authenticated : conn.state.authenticated with
  | false => exact Kept.unauthenticated rfl authenticated authenticated
  | true => exact Kept.of_state rfl rfl rfl rfl rfl (by simp [AppConn.has, steady authenticated])

theorem setRedir_kept (msg : UamMsg) : Kept conn (msg.setRedir conn) := by
  unfold UamMsg.setRedir
  split <;> exact ⟨rfl, rfl⟩

theorem setRedir_params (msg : UamMsg) : (msg.setRedir conn).params = conn.params := by
  unfold UamMsg.setRedir
  split <;> rfl

variable (conn) in
theorem setRedir_authenticated (msg : UamMsg) :
    (msg.setRedir conn).state.authenticated = conn.state.authenticated := by
  unfold UamMsg.setRedir
  split <;> rfl

theorem setParams_kept {msg : UamMsg}
    (same : ∀ params ∈ msg.params, params.flags &&& noAccounting = conn.params.flags &&& noAccounting) :
    Kept conn (msg.setParams conn) := by
  unfold UamMsg.setParams
  cases given : msg.params with
  | none => exact ⟨rfl, rfl⟩
  | some params => exact Kept.of_state rfl rfl rfl rfl rfl (by simp [AppConn.has, same params given])

theorem uamPrepare_kept {granted : Option UInt32} {msg : UamMsg}
    (steady : Steady conn (.uam history granted msg)) : Kept conn (uamPrepare clock msg conn) := by
  unfold uamPrepare
  split
  case isFalse => exact ⟨rfl, rfl⟩
  case isTrue prepared =>
    cases authenticated : conn.state.authenticated with
    | false =>
        have still := (setRedir_authenticated conn msg).trans authenticated
        dsimp only
        split
        · exact Kept.unauthenticated (setRedir_kept msg).unit authenticated still
        · exact Kept.unauthenticated (setRedir_kept msg).unit authenticated still
    | true =>
        have logout : msg.mtype = .logout := by simpa [authenticated] using prepared
        obtain ⟨old, same⟩ := steady authenticated logout
        simp only [old]
        exact (setRedir_kept msg).trans (setParams_kept (by simpa [setRedir_params] using same))

theorem uamLogout_settled : Settled clock.now conn (uamLogout clock conn) := by
  unfold uamLogout
  by_cases authenticated : conn.state.authenticated = true
  · rw [if_pos authenticated]
    have closed : Settled clock.now conn
        (terminateFor clock conn (sessionUserLogoutUrl, terminateCauseUserRequest)) :=
      terminateFor_settled _
    exact closed.kept ⟨rfl, rfl⟩
  · rw [if_neg authenticated]
    exact ⟨rfl, rfl⟩

theorem uamAbort_settled : Settled clock.now conn (uamAbort clock conn) := by
  have noted : Kept conn
      { conn.setAuthstate .dnat with uamabort := true, state := { conn.state with uamtime := 0 } } :=
    ⟨rfl, rfl⟩
  exact noted.settled_after (terminateAppconn_settled terminateCauseUserRequest)

theorem uamMsg_settled {granted : Option UInt32} {msg : UamMsg}
    (steady : Steady conn (.uam history granted msg)) :
    Settled clock.now conn (uamMsg options clock history granted msg conn) := by
  unfold uamMsg
  split
  · exact ⟨rfl, rfl⟩
  · have prepared : Kept conn (uamPrepare clock msg conn) := uamPrepare_kept steady
    refine prepared.settled_after ?_
    dsimp only
    split
    · split
      · exact ⟨rfl, rfl⟩
      · exact upprotGetip_settled granted
    · exact uamLogout_settled
    · exact uamAbort_settled
    · exact ⟨rfl, rfl⟩
    · exact ⟨rfl, rfl⟩

theorem perform_settled {action : Action} (steady : Steady conn action) :
    Settled clock.now conn (perform options clock action conn) := by
  cases action with
  | request history request => exact cbDhcpRequest_settled request
  | configure params => exact (configure_kept params steady).settled
  | accept history => exact dnprotAccept_settled
  | getip history granted => exact upprotGetip_settled granted
  | reject => exact dnprotReject_kept.settled
  | terminate cause => exact terminateAppconn_settled cause
  | uam history granted msg => exact uamMsg_settled steady
  | fromsub datagram => exact chilliAcctFromsub_settled datagram
  | tosub datagram => exact chilliAcctTosub_settled datagram
  | block => exact ⟨rfl, rfl⟩

theorem checkconn_settled : Settled clock.now conn (checkconn clock conn) := by
  unfold checkconn
  split
  · exact ⟨rfl, rfl⟩
  · exact sessionInterval_settled

end Connection

/-! ## The ledger of all connections -/

/-- What the ledger has when everything is settled. -/
def ledgerOf (used : List AppConn) : Ledger :=
  used.foldr (fun conn ledger => Function.update ledger conn.unit conn.openSession) Ledger.empty

section Ledgers

variable {clock : Clock} {ledger : Ledger} {unit : Nat} {first second : List Entry}
  {used : List AppConn} {operation : AppConn → Outcome}

theorem audit_append :
    audit ledger (first ++ second) = (audit ledger first).bind fun ledger => audit ledger second := by
  induction first generalizing ledger with
  | nil => rfl
  | cons entry rest ih =>
      rw [List.cons_append, audit, audit, Option.bind_assoc]
      exact congrArg _ (funext fun opened => ih)

theorem audit_observe (observed : List Observed) :
    audit ledger (observe clock unit observed) =
      (settleAll clock.now (ledger unit) observed).map (Function.update ledger unit) := by
  induction observed generalizing ledger with
  | nil => simp [observe, audit, settleAll]
  | cons one rest ih =>
      rw [observe, List.map_cons, audit, settleAll]
      cases settled : settle clock.now (ledger unit) one with
      | none => rfl
      | some opened =>
          simp only [Option.bind_some]
          have again : Function.update (Function.update ledger unit opened) unit =
              Function.update ledger unit := funext fun _ => Function.update_idem ..
          have next := @ih (Function.update ledger unit opened)
          rw [Function.update_self, again] at next
          exact next

/-- Entries of other connections leave a place of the ledger alone. -/
theorem audit_update {entries : List Entry} (others : ∀ entry ∈ entries, entry.unit ≠ unit)
    (opened : Option OpenSession) :
    audit (Function.update ledger unit opened) entries =
      (audit ledger entries).map (Function.update · unit opened) := by
  induction entries generalizing ledger with
  | nil => rfl
  | cons entry rest ih =>
      have other := others entry List.mem_cons_self
      rw [audit, audit, Function.update_of_ne other]
      cases settled : settle entry.time (ledger entry.unit) entry.observed with
      | none => rfl
      | some session =>
          simp only [Option.bind_some]
          rw [Function.update_comm other.symm]
          exact ih fun later member => others later (List.mem_cons_of_mem _ member)

theorem observe_unit {observed : List Observed} :
    ∀ entry ∈ observe clock unit observed, entry.unit = unit := by
  intro entry member
  obtain ⟨one, -, rfl⟩ := List.mem_map.mp member
  rfl

theorem onUnit_unit : ∀ entry ∈ (onUnit clock unit operation used).2, entry.unit = unit := by
  induction used with
  | nil => exact fun entry member => nomatch member
  | cons conn rest ih =>
      rw [onUnit]
      split
      · exact observe_unit
      · exact ih

theorem onUnit_audit
    (settles : ∀ conn ∈ used, conn.unit = unit → Settled clock.now conn (operation conn)) :
    audit (ledgerOf used) (onUnit clock unit operation used).2 =
      some (ledgerOf (onUnit clock unit operation used).1) := by
  induction used with
  | nil => rfl
  | cons conn rest ih =>
      rw [onUnit]
      split
      case isTrue here =>
        have settled := settles conn List.mem_cons_self here
        change audit (Function.update (ledgerOf rest) conn.unit conn.openSession)
            (observe clock unit (operation conn).2) =
          some (Function.update (ledgerOf rest) (operation conn).1.unit (operation conn).1.openSession)
        rw [audit_observe, ← here, Function.update_self, settled.settles, settled.unit]
        simp only [Option.map_some, Function.update_idem]
      case isFalse elsewhere =>
        change audit (Function.update (ledgerOf rest) conn.unit conn.openSession)
            (onUnit clock unit operation rest).2 =
          some (Function.update (ledgerOf (onUnit clock unit operation rest).1) conn.unit
            conn.openSession)
        rw [audit_update fun entry member same => elsewhere (same.symm.trans (onUnit_unit entry member)),
          ih fun other member => settles other (List.mem_cons_of_mem _ member)]
        rfl

theorem onEach_unit :
    ∀ entry ∈ (onEach clock operation used).2, entry.unit ∈ used.map AppConn.unit := by
  induction used with
  | nil => exact fun entry member => nomatch member
  | cons conn rest ih =>
      intro entry member
      rcases List.mem_append.mp member with own | other
      · exact observe_unit entry own ▸ List.mem_cons_self
      · exact List.mem_cons_of_mem _ (ih entry other)

theorem onEach_audit (distinct : (used.map AppConn.unit).Nodup)
    (settles : ∀ conn ∈ used, Settled clock.now conn (operation conn)) :
    audit (ledgerOf used) (onEach clock operation used).2 =
      some (ledgerOf (onEach clock operation used).1) := by
  induction used with
  | nil => rfl
  | cons conn rest ih =>
      obtain ⟨fresh, distinct⟩ := List.nodup_cons.mp distinct
      have settled := settles conn List.mem_cons_self
      change audit (Function.update (ledgerOf rest) conn.unit conn.openSession)
          (observe clock conn.unit (operation conn).2 ++ (onEach clock operation rest).2) =
        some (Function.update (ledgerOf (onEach clock operation rest).1) (operation conn).1.unit
          (operation conn).1.openSession)
      rw [audit_append, audit_observe, Function.update_self, settled.settles, settled.unit,
        Option.map_some, Option.bind_some, Function.update_idem,
        audit_update fun entry member same => fresh (by
          have listed := onEach_unit entry member
          rwa [same] at listed),
        ih distinct fun other member => settles other (List.mem_cons_of_mem _ member)]
      rfl

/-! ## Members -/

theorem onEach_mem {after : AppConn} (member : after ∈ (onEach clock operation used).1) :
    ∃ conn ∈ used, (operation conn).1 = after := by
  induction used with
  | nil => cases member
  | cons conn rest ih =>
      rcases List.mem_cons.mp member with rfl | later
      · exact ⟨conn, List.mem_cons_self, rfl⟩
      · obtain ⟨other, listed, same⟩ := ih later
        exact ⟨other, List.mem_cons_of_mem _ listed, same⟩

theorem onUnit_mem {after : AppConn} (member : after ∈ (onUnit clock unit operation used).1) :
    after ∈ used ∨ ∃ conn ∈ used, (operation conn).1 = after := by
  induction used with
  | nil => cases member
  | cons conn rest ih =>
      rw [onUnit] at member
      split at member
      · rcases List.mem_cons.mp member with rfl | later
        · exact .inr ⟨conn, List.mem_cons_self, rfl⟩
        · exact .inl (List.mem_cons_of_mem _ later)
      · rcases List.mem_cons.mp member with rfl | later
        · exact .inl List.mem_cons_self
        · rcases ih later with old | ⟨other, listed, same⟩
          · exact .inl (List.mem_cons_of_mem _ old)
          · exact .inr ⟨other, List.mem_cons_of_mem _ listed, same⟩

/-! ## Units -/

theorem onUnit_units (same : ∀ conn ∈ used, conn.unit = unit → (operation conn).1.unit = conn.unit) :
    (onUnit clock unit operation used).1.map AppConn.unit = used.map AppConn.unit := by
  induction used with
  | nil => rfl
  | cons conn rest ih =>
      rw [onUnit]
      split
      case isTrue here =>
        exact congrArg (· :: rest.map AppConn.unit) (same conn List.mem_cons_self here)
      case isFalse =>
        exact congrArg (conn.unit :: ·) (ih fun other member => same other (List.mem_cons_of_mem _ member))

theorem onEach_units (same : ∀ conn ∈ used, (operation conn).1.unit = conn.unit) :
    (onEach clock operation used).1.map AppConn.unit = used.map AppConn.unit := by
  induction used with
  | nil => rfl
  | cons conn rest ih =>
      exact congrArg₂ List.cons (same conn List.mem_cons_self)
        (ih fun other member => same other (List.mem_cons_of_mem _ member))

theorem ledgerOf_unused (unused : unit ∉ used.map AppConn.unit) : ledgerOf used unit = none := by
  induction used with
  | nil => rfl
  | cons conn rest ih =>
      rw [List.map_cons, List.mem_cons, not_or] at unused
      change Function.update (ledgerOf rest) conn.unit conn.openSession unit = none
      rw [Function.update_of_ne unused.1]
      exact ih unused.2

theorem ledgerOf_freed :
    ledgerOf (used.filter (·.unit ≠ unit)) = Function.update (ledgerOf used) unit none := by
  induction used with
  | nil => exact (Function.update_eq_self unit Ledger.empty).symm
  | cons conn rest ih =>
      by_cases here : conn.unit = unit
      · rw [List.filter_cons_of_neg (by simpa using here), ih]
        change _ = Function.update (Function.update (ledgerOf rest) conn.unit conn.openSession) unit none
        rw [here, Function.update_idem]
      · rw [List.filter_cons_of_pos (by simpa using here)]
        change Function.update (ledgerOf (rest.filter (·.unit ≠ unit))) conn.unit conn.openSession =
          Function.update (Function.update (ledgerOf rest) conn.unit conn.openSession) unit none
        rw [ih, Function.update_comm here]

theorem ledgerOf_closed (closed : ∀ conn ∈ used, conn.openSession = none) :
    ledgerOf used = Ledger.empty := by
  induction used with
  | nil => rfl
  | cons conn rest ih =>
      change Function.update (ledgerOf rest) conn.unit conn.openSession = Ledger.empty
      rw [ih fun other member => closed other (List.mem_cons_of_mem _ member),
        closed conn List.mem_cons_self]
      exact Function.update_eq_self conn.unit Ledger.empty

theorem onUnit_closed (closes : ∀ conn ∈ used, conn.unit = unit →
    (operation conn).1.unit = unit ∧ (operation conn).1.openSession = none) :
    ledgerOf (onUnit clock unit operation used).1 unit = none := by
  induction used with
  | nil => rfl
  | cons conn rest ih =>
      rw [onUnit]
      split
      case isTrue here =>
        obtain ⟨same, closed⟩ := closes conn List.mem_cons_self here
        change Function.update (ledgerOf rest) (operation conn).1.unit (operation conn).1.openSession
          unit = none
        rw [same, Function.update_self, closed]
      case isFalse elsewhere =>
        change Function.update (ledgerOf (onUnit clock unit operation rest).1) conn.unit
          conn.openSession unit = none
        rw [Function.update_of_ne (Ne.symm elsewhere)]
        exact ih fun other member => closes other (List.mem_cons_of_mem _ member)

end Ledgers

/-! ## Runs -/

structure Pool.Sound (pool : Pool) : Prop where
  distinct : (pool.used.map AppConn.unit ++ pool.free).Nodup
  numbered : ∀ unit ∈ pool.used.map AppConn.unit ++ pool.free, unit ≤ pool.connections

def SteadyStep (pool : Pool) : Event → Prop
  | .act unit action => ∀ conn ∈ pool.used, conn.unit = unit → Steady conn action
  | _ => True

def SteadyRun (options : SessionOptions) (daemon : Daemon) : List Event → Prop
  | [] => True
  | event :: events =>
      SteadyStep daemon.pool event ∧ SteadyRun options (step options daemon event).1 events

section Runs

variable {options : SessionOptions} {clock : Clock} {pool after : Pool} {conn : AppConn}
  {event : Event} {daemon : Daemon} {events : List Event}

theorem Pool.Sound.change {changed : List AppConn × List Entry} (sound : pool.Sound)
    (units : changed.1.map AppConn.unit = pool.used.map AppConn.unit) :
    (pool.change changed).1.Sound := by
  refine ⟨?_, ?_⟩
  · simpa only [Pool.change, units] using sound.distinct
  · simpa only [Pool.change, units] using sound.numbered

theorem terminateAppconn_unit (cause : UInt32) :
    (terminateAppconn clock conn cause).1.unit = conn.unit :=
  (terminateAppconn_settled cause).unit

theorem terminateAppconn_closed (cause : UInt32) :
    (terminateAppconn clock conn cause).1.openSession = none := by
  unfold terminateAppconn
  split
  case isTrue => exact AppConn.openSession_none (congrArg SessionState.authenticated dnprotTerminate_state)
  case isFalse closed => exact AppConn.openSession_none (by simpa using closed)

theorem chilliNewConn_sound (sound : pool.Sound) (made : chilliNewConn options pool = some (conn, after)) :
    after.Sound ∧ after.used = conn :: pool.used ∧ conn.state = .zero := by
  obtain ⟨distinct, numbered⟩ := sound
  unfold chilliNewConn at made
  split at made
  case h_1 none =>
    rw [none, List.append_nil] at distinct numbered
    split at made
    · cases made
    · cases made
      refine ⟨⟨?_, ?_⟩, rfl, rfl⟩
      · rw [none, List.append_nil]
        exact List.nodup_cons.mpr ⟨fun listed => Nat.not_succ_le_self _ (numbered _ listed), distinct⟩
      · rw [none, List.append_nil]
        intro unit listed
        rcases List.mem_cons.mp listed with rfl | old
        · exact Nat.le_refl _
        · exact Nat.le_succ_of_le (numbered unit old)
  case h_2 unit free reused =>
    rw [reused] at distinct numbered
    cases made
    refine ⟨⟨List.nodup_middle.mp distinct, fun other listed => numbered other ?_⟩, rfl, rfl⟩
    exact List.perm_middle.mem_iff.mpr listed

variable (options clock) in
theorem cbDhcpConnect_sound (sound : pool.Sound) (isReserved : Bool) :
    (cbDhcpConnect options clock isReserved pool).Sound ∧
      ledgerOf (cbDhcpConnect options clock isReserved pool).used = ledgerOf pool.used := by
  unfold cbDhcpConnect
  split
  case h_1 => exact ⟨sound, rfl⟩
  case h_2 conn after made =>
    obtain ⟨made, used, state⟩ := chilliNewConn_sound sound made
    obtain ⟨distinct, numbered⟩ := made
    rw [used] at distinct numbered
    refine ⟨⟨distinct, numbered⟩, ?_⟩
    have fresh : conn.unit ∉ pool.used.map AppConn.unit := fun listed =>
      (List.nodup_cons.mp distinct).1 (List.mem_append_left _ listed)
    have closed : AppConn.openSession (setSessionid clock
        { conn with dnlink := some ⟨.none, isReserved⟩, dnprot := .dhcpNone }) = none :=
      AppConn.openSession_none (congrArg SessionState.authenticated state)
    change Function.update (ledgerOf pool.used) conn.unit (AppConn.openSession _) = _
    rw [closed, ← ledgerOf_unused fresh, Function.update_eq_self]

theorem freeconn_sound {unit : Nat} (sound : pool.Sound) (listed : unit ∈ pool.used.map AppConn.unit) :
    (freeconn unit pool).Sound := by
  have others : ((pool.used.filter (·.unit ≠ unit)).map AppConn.unit).Sublist
      (pool.used.map AppConn.unit) := List.filter_sublist.map _
  have kept := others.append (List.Sublist.refl pool.free)
  refine ⟨?_, ?_⟩
  · refine List.nodup_middle.mpr (List.nodup_cons.mpr ⟨?_, sound.distinct.sublist kept⟩)
    rw [List.mem_append, not_or]
    refine ⟨?_, fun free => (List.nodup_append.mp sound.distinct).2.2 unit listed unit free rfl⟩
    intro remaining
    obtain ⟨conn, member, same⟩ := List.mem_map.mp remaining
    exact of_decide_eq_true (List.mem_filter.mp member).2 same
  · intro other member
    rcases List.mem_cons.mp (List.perm_middle.mem_iff.mp member) with rfl | old
    · exact sound.numbered other (List.mem_append_left _ listed)
    · exact sound.numbered other (kept.subset old)

theorem sessionDisconnect_audit (sound : pool.Sound) (unit : Nat) (termCause : UInt32) :
    (sessionDisconnect clock unit termCause pool).1.Sound ∧
      audit (ledgerOf pool.used) (sessionDisconnect clock unit termCause pool).2 =
        some (ledgerOf (sessionDisconnect clock unit termCause pool).1.used) := by
  unfold sessionDisconnect
  split
  case h_1 => exact ⟨sound, rfl⟩
  case h_2 conn found =>
    have member := List.mem_of_find?_eq_some found
    have here : conn.unit = unit := by simpa using List.find?_some found
    have units := @onUnit_units clock unit pool.used
      (fun conn => terminateAppconn clock conn (disconnectCause termCause conn))
      fun conn _ _ => terminateAppconn_unit _
    have terminated := sound.change units
    have settled := @onUnit_audit clock unit pool.used
      (fun conn => terminateAppconn clock conn (disconnectCause termCause conn))
      fun conn _ _ => terminateAppconn_settled _
    have closed := @onUnit_closed clock unit pool.used
      (fun conn => terminateAppconn clock conn (disconnectCause termCause conn))
      fun conn _ same => ⟨(terminateAppconn_unit _).trans same, terminateAppconn_closed _⟩
    dsimp only
    split
    · exact ⟨terminated, settled⟩
    · refine ⟨freeconn_sound terminated ?_, ?_⟩
      · rw [Pool.change, units]
        exact List.mem_map.mpr ⟨conn, member, here⟩
      · refine settled.trans (congrArg some ?_)
        exact (ledgerOf_freed.trans (closed ▸ Function.update_eq_self unit _)).symm

variable (options clock) in
theorem poolStep_audit (sound : pool.Sound) (steady : SteadyStep pool event) :
    (poolStep options clock pool event).1.Sound ∧
      audit (ledgerOf pool.used) (poolStep options clock pool event).2 =
        some (ledgerOf (poolStep options clock pool event).1.used) := by
  have distinct := (List.nodup_append.mp sound.distinct).1
  cases event with
  | tick clock => exact ⟨sound, rfl⟩
  | connect isReserved =>
      obtain ⟨sound, same⟩ := cbDhcpConnect_sound options clock sound isReserved
      exact ⟨sound, congrArg some same.symm⟩
  | disconnect unit termCause => exact sessionDisconnect_audit sound unit termCause
  | check =>
      exact ⟨sound.change (onEach_units fun conn _ => checkconn_settled.unit),
        onEach_audit distinct fun conn _ => checkconn_settled⟩
  | act unit action =>
      have settles : ∀ conn ∈ pool.used, conn.unit = unit →
          Settled clock.now conn (perform options clock action conn) :=
        fun conn member here => perform_settled (steady conn member here)
      exact ⟨sound.change (onUnit_units fun conn member here => (settles conn member here).unit),
        onUnit_audit settles⟩

theorem step_pool : (step options daemon event).1.pool =
    (poolStep options daemon.clock daemon.pool event).1 := by
  cases event <;> rfl

theorem step_entries : (step options daemon event).2 =
    (poolStep options daemon.clock daemon.pool event).2 := by
  cases event <;> rfl

theorem run_cons : run options daemon (event :: events) =
    ((run options (step options daemon event).1 events).1,
      (step options daemon event).2 ++ (run options (step options daemon event).1 events).2) := rfl

theorem run_audit (sound : daemon.pool.Sound) (steady : SteadyRun options daemon events) :
    (run options daemon events).1.pool.Sound ∧
      audit (ledgerOf daemon.pool.used) (run options daemon events).2 =
        some (ledgerOf (run options daemon events).1.pool.used) := by
  induction events generalizing daemon with
  | nil => exact ⟨sound, rfl⟩
  | cons event events ih =>
      obtain ⟨next, settled⟩ := poolStep_audit options daemon.clock sound steady.1
      rw [← step_pool, ← step_entries] at settled
      obtain ⟨after, rest⟩ := ih (step_pool ▸ next) steady.2
      rw [run_cons]
      refine ⟨after, ?_⟩
      rw [audit_append, settled, Option.bind_some]
      exact rest

theorem Pool.empty_sound : Pool.empty.Sound := ⟨List.nodup_nil, fun _ listed => nomatch listed⟩

theorem killconn_audit (sound : pool.Sound) :
    audit (ledgerOf pool.used) (killconn clock pool).2 = some Ledger.empty := by
  have settled := @onEach_audit clock pool.used
    (fun conn => terminateAppconn clock conn terminateCauseNasReboot)
    (List.nodup_append.mp sound.distinct).1 fun conn _ => terminateAppconn_settled _
  refine settled.trans (congrArg some (ledgerOf_closed ?_))
  intro conn member
  obtain ⟨before, -, rfl⟩ := onEach_mem member
  exact terminateAppconn_closed _

end Runs

def plainOptions : SessionOptions where
  defaults := .zero
  maxClients := 2
  macallowlocal := false
  macauth := false
  strictmacauth := false
  macauthdeny := false
  dhcpnotidle := false
  swapoctets := false

/-- A client logs in, downloads for a minute and is terminated. -/
def minute : List Event :=
  [.connect false, .act 1 (.request ⟨0, 0, 0⟩ ⟨none, false, none, some 0x0a010002⟩),
    .act 1 (.uam ⟨0, 0, 0⟩ none ⟨.login, none, none, false⟩), .act 1 (.tosub ⟨1500, false, false⟩),
    .tick ⟨160, 5060⟩, .act 1 (.terminate 6)]

end Rut9xx.Chilli.Session
