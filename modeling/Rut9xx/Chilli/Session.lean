import Rut9xx.Chilli.QuotaDecision

namespace Rut9xx.Chilli.Session

/-! # Sessions of clients (`chilli.c`)

What becomes of the connection of one client: it gets an address, is accepted, counts what passes, is
checked against its limits and is terminated, with the RADIUS accounting of all this. -/

structure Clock where
  now : Int
  rt : Int

/-! ## The connection -/

inductive DnProt where
  | null
  | dhcpNone
  | uam
  | wpa
  | mac
  deriving DecidableEq

inductive AuthState where
  | none
  | drop
  | pass
  | dnat
  | splash
  deriving DecidableEq

/-- The connection below, as far as it is used here. -/
structure DnLink where
  authstate : AuthState
  isReserved : Bool

def requireUamAuth : UInt16 := 0x0001
def requireUamSplash : UInt16 := 0x0002
def isUamReauth : UInt16 := 0x0008
def noAccounting : UInt16 := 0x0010
def uamClearUrl : UInt16 := 0x0100

structure SessionParams where
  url : List UInt8
  bandwidthmaxup : UInt64
  bandwidthmaxdown : UInt64
  maxinputoctets : UInt64
  maxoutputoctets : UInt64
  maxtotaloctets : UInt64
  warningoctets : UInt64
  sessiontimeout : UInt64
  idletimeout : UInt32
  interimInterval : UInt16
  sessionterminatetime : Int
  period : Int
  start : Int
  expiration : UInt64
  flags : UInt16

def SessionParams.zero : SessionParams where
  url := []
  bandwidthmaxup := 0
  bandwidthmaxdown := 0
  maxinputoctets := 0
  maxoutputoctets := 0
  maxtotaloctets := 0
  warningoctets := 0
  sessiontimeout := 0
  idletimeout := 0
  interimInterval := 0
  sessionterminatetime := 0
  period := 0
  start := 0
  expiration := 0
  flags := 0

/-- The time and the unit that its text is printed from. -/
structure SessionId where
  rt : UInt32
  unit : Nat
  deriving DecidableEq

structure Usage where
  inputPackets : UInt64
  outputPackets : UInt64
  inputOctets : UInt64
  outputOctets : UInt64
  deriving DecidableEq

def Usage.zero : Usage := ⟨0, 0, 0, 0⟩

def Usage.add (usage more : Usage) : Usage where
  inputPackets := usage.inputPackets + more.inputPackets
  outputPackets := usage.outputPackets + more.outputPackets
  inputOctets := usage.inputOctets + more.inputOctets
  outputOctets := usage.outputOctets + more.outputOctets

structure SessionState where
  authenticated : Bool
  sessionid : SessionId
  startTime : Int
  interimTime : Int
  lastTime : Int
  lastUpTime : Int
  uamtime : Int
  usage : Usage
  terminateCause : UInt32
  terminateCauseUi : UInt32
  authMode : Int
  userTime : UInt32

def SessionState.zero : SessionState where
  authenticated := false
  sessionid := ⟨0, 0⟩
  startTime := 0
  interimTime := 0
  lastTime := 0
  lastUpTime := 0
  uamtime := 0
  usage := .zero
  terminateCause := 0
  terminateCauseUi := 0
  authMode := 0
  userTime := 0

/-- What the database has of earlier sessions of the user. -/
structure SessionHistory where
  inputOctets : UInt64
  outputOctets : UInt64
  sessiontime : UInt32

/-- `uplink` is the address of the member of the pool. -/
structure AppConn where
  unit : Nat
  dnprot : DnProt
  dnlink : Option DnLink
  uplink : Option UInt32
  hisip : UInt32
  reqip : UInt32
  uamabort : Bool
  params : SessionParams
  state : SessionState
  history : SessionHistory

def AppConn.has (conn : AppConn) (flag : UInt16) : Bool := conn.params.flags &&& flag ≠ 0

def AppConn.setAuthstate (conn : AppConn) (authstate : AuthState) : AppConn :=
  { conn with dnlink := conn.dnlink.map ({ · with authstate }) }

structure SessionOptions where
  defaults : SessionParams
  maxClients : Nat
  macallowlocal : Bool
  macauth : Bool
  strictmacauth : Bool
  macauthdeny : Bool
  dhcpnotidle : Bool
  swapoctets : Bool

/-! ## Accounting -/

inductive StatusType where
  | start
  | interimUpdate
  | stop

/-- The counters as the attributes have them. -/
structure Counters where
  inputOctets : UInt32
  outputOctets : UInt32
  inputGigawords : UInt32
  outputGigawords : UInt32
  inputPackets : UInt32
  outputPackets : UInt32
  sessionTime : UInt32
  deriving DecidableEq

/-- What is seen from outside: the accounting requests, and the datagrams that passed and were
counted. -/
inductive Observed where
  | started (id : SessionId)
  | updated (id : SessionId) (counters : Counters)
  | stopped (id : SessionId) (counters : Counters) (terminateCause : UInt32)
  | passed (usage : Usage)
  deriving DecidableEq

/-- `radius_addattr` takes 32 bits of a number. -/
def counters (usage : Usage) (sessionTime : UInt32) : Counters where
  inputOctets := usage.inputOctets.toUInt32
  outputOctets := usage.outputOctets.toUInt32
  inputGigawords := (usage.inputOctets >>> 32).toUInt32
  outputGigawords := (usage.outputOctets >>> 32).toUInt32
  inputPackets := usage.inputPackets.toUInt32
  outputPackets := usage.outputPackets.toUInt32
  sessionTime := sessionTime

/-- An operation on a connection, with what is seen of it. -/
abbrev Outcome := AppConn × List Observed

section Operations

variable (options : SessionOptions) (clock : Clock)

/-- `history` is what `dbsession_state` finds. -/
def acctReq (history : SessionHistory) (conn : AppConn) (statusType : StatusType) : Outcome :=
  let elapsed := mainclockDiffu clock.now conn.state.startTime
  let sent (conn : AppConn) (request : Observed) : Outcome :=
    (conn, if conn.has noAccounting then [] else [request])
  match statusType with
  | .start =>
      sent
        { conn with
          state :=
            { conn.state with
              startTime := clock.now
              interimTime := clock.now
              lastTime := clock.now
              lastUpTime := clock.now
              usage := .zero }
          history }
        (.started conn.state.sessionid)
  | .interimUpdate =>
      sent { conn with state := { conn.state with interimTime := clock.now } }
        (.updated conn.state.sessionid (counters conn.state.usage elapsed))
  | .stop =>
      sent conn
        (.stopped conn.state.sessionid (counters conn.state.usage elapsed) conn.state.terminateCause)

def setSessionid (conn : AppConn) : AppConn :=
  { conn with state := { conn.state with sessionid := ⟨asUnsigned clock.rt, conn.unit⟩ } }

/-! ## Accepted, rejected, terminated -/

def dnprotReject (conn : AppConn) : AppConn :=
  match conn.dnprot, conn.dnlink with
  | .mac, some _ =>
      if options.macauthdeny then { conn.setAuthstate .drop with dnprot := .null }
      else { conn.setAuthstate .dnat with dnprot := .uam }
  | _, _ => conn

/-- The downlink is told, or there is nothing to accept. -/
def acceptLink (conn : AppConn) : Option AppConn :=
  match conn.dnprot, conn.dnlink with
  | .uam, some _ =>
      some
        { conn.setAuthstate .pass with
          params := { conn.params with flags := conn.params.flags &&& ~~~requireUamAuth } }
  | .wpa, some _ =>
      some
        (if conn.has requireUamAuth then { conn.setAuthstate .none with dnprot := .dhcpNone }
        else conn.setAuthstate .pass)
  | .mac, some _ => some (conn.setAuthstate .pass)
  | _, _ => none

/-- The one and only place state is switched to authenticated. -/
def authenticate (history : SessionHistory) (conn : AppConn) : Outcome :=
  acctReq clock history
    { conn with state := { conn.state with authenticated := true, terminateCauseUi := 0 } } .start

def dnprotAccept (history : SessionHistory) (conn : AppConn) : Outcome :=
  if conn.hisip = 0 then (conn, [])
  else
    match acceptLink conn with
    | none => (conn, [])
    | some conn =>
        let conn :=
          if conn.has requireUamSplash || conn.has requireUamAuth then conn.setAuthstate .splash
          else conn
        let (conn, observed) :=
          if conn.has requireUamAuth then (conn, [])
          else
            authenticate clock history conn
        ({ conn with params := { conn.params with flags := conn.params.flags &&& ~~~isUamReauth } },
          observed)

/-- `granted` is what `newip` gives when there is no address yet. -/
def upprotGetip (history : SessionHistory) (granted : Option UInt32) (conn : AppConn) : Outcome :=
  match conn.uplink, granted with
  | some _, _ => dnprotAccept clock history conn
  | none, none => (dnprotReject options conn, [])
  | none, some ip => dnprotAccept clock history { conn with hisip := ip, uplink := some ip }

def dnprotTerminate (conn : AppConn) : AppConn :=
  let conn := { conn with state := { conn.state with authenticated := false } }
  let conn :=
    if conn.params.url ≠ [] && conn.has uamClearUrl then
      { conn with params :=
        { conn.params with url := [], flags := conn.params.flags &&& ~~~uamClearUrl } }
    else conn
  match conn.dnprot with
  | .wpa => conn.setAuthstate .none
  | _ => conn.setAuthstate .dnat

def clearAppconn (conn : AppConn) : AppConn :=
  { conn with params :=
    { conn.params with
      bandwidthmaxup := 0
      bandwidthmaxdown := 0
      maxinputoctets := 0
      maxoutputoctets := 0
      maxtotaloctets := 0
      warningoctets := 0
      sessiontimeout := 0
      idletimeout := 0
      interimInterval := 0
      sessionterminatetime := 0
      expiration := 0 } }

def terminateAppconn (conn : AppConn) (terminateCause : UInt32) : Outcome :=
  if conn.state.authenticated then
    let conn := dnprotTerminate conn
    let conn := { conn with state := { conn.state with terminateCause } }
    let (conn, observed) := acctReq clock conn.history conn .stop
    (setSessionid clock (clearAppconn conn), observed)
  else (conn, [])

/-! ## Limits -/

def terminateCauseUserRequest : UInt32 := 1
def terminateCauseLostCarrier : UInt32 := 2
def terminateCauseIdleTimeout : UInt32 := 4
def terminateCauseSessionTimeout : UInt32 := 5
def terminateCauseNasReboot : UInt32 := 11

def sessionUserLogoutUrl : UInt32 := 10
def sessionIdleTimeoutReached : UInt32 := 11
def sessionTimeoutReached : UInt32 := 12
def sessionLogoutTimeReached : UInt32 := 13
def sessionInDatalimitReached : UInt32 := 14
def sessionOutDatalimitReached : UInt32 := 15
def sessionTotalDatalimitReached : UInt32 := 16
def sessionUserExpired : UInt32 := 18

def authDynUser : Int := 1
def authSmsUser : Int := 2

/-- The causes for the user interface and for the accounting. -/
abbrev Causes := UInt32 × UInt32

/-- The first limit that the session has passed. -/
def limitReached (conn : AppConn) : Option Causes :=
  let params := conn.params
  let state := conn.state
  let sessiontime := mainclockDiffu clock.now state.startTime
  let idletime := mainclockDiffu clock.now state.lastUpTime
  if params.sessiontimeout ≠ 0 ∧ sessiontime.toUInt64 > params.sessiontimeout then
    some (sessionTimeoutReached, terminateCauseSessionTimeout)
  else if params.expiration ≠ 0 ∧ (state.authMode = authDynUser ∨ state.authMode = authSmsUser) ∧
      (sessiontime + state.userTime).toUInt64 > params.expiration then
    some (sessionUserExpired, terminateCauseSessionTimeout)
  else if params.sessionterminatetime ≠ 0 ∧ clock.rt - params.sessionterminatetime > 0 then
    some (sessionLogoutTimeReached, terminateCauseSessionTimeout)
  else if params.idletimeout ≠ 0 ∧ idletime > params.idletimeout then
    some (sessionIdleTimeoutReached, terminateCauseIdleTimeout)
  else if params.maxinputoctets ≠ 0 ∧ state.usage.inputOctets > params.maxinputoctets then
    some (sessionInDatalimitReached, terminateCauseSessionTimeout)
  else if params.maxoutputoctets ≠ 0 ∧ state.usage.outputOctets > params.maxoutputoctets then
    some (sessionOutDatalimitReached, terminateCauseSessionTimeout)
  else if params.maxtotaloctets ≠ 0 ∧
      state.usage.inputOctets + state.usage.outputOctets > params.maxtotaloctets then
    some (sessionTotalDatalimitReached, terminateCauseSessionTimeout)
  else none

/-- The same with what the database has of the user; here only the session's time is 32 bits. -/
def totalReached (conn : AppConn) : Option Causes :=
  let params := conn.params
  let state := conn.state
  let sessiontime := mainclockDiffu clock.now state.startTime
  if params.sessiontimeout ≠ 0 ∧
      (conn.history.sessiontime + sessiontime).toUInt64 > params.sessiontimeout then
    some (sessionTimeoutReached, terminateCauseSessionTimeout)
  else if params.maxinputoctets ≠ 0 ∧
      state.usage.inputOctets + conn.history.inputOctets > params.maxinputoctets then
    some (sessionInDatalimitReached, terminateCauseSessionTimeout)
  else if params.maxoutputoctets ≠ 0 ∧
      state.usage.outputOctets + conn.history.outputOctets > params.maxoutputoctets then
    some (sessionOutDatalimitReached, terminateCauseSessionTimeout)
  else none

def terminateFor (conn : AppConn) (causes : Causes) : Outcome :=
  terminateAppconn clock
    { conn with state := { conn.state with terminateCauseUi := causes.1 } } causes.2

/-- An interim update is due when no limit is passed. -/
def checkLimits (conn : AppConn) : Outcome :=
  match limitReached clock conn with
  | some causes => terminateFor clock conn causes
  | none =>
      if conn.params.interimInterval ≠ 0 ∧
          mainclockDiffu clock.now conn.state.interimTime ≥ conn.params.interimInterval.toUInt32 then
        acctReq clock conn.history conn .interimUpdate
      else (conn, [])

def checkTotals (conn : AppConn) : Outcome :=
  match totalReached clock conn with
  | some causes => terminateFor clock conn causes
  | none => (conn, [])

def sessionInterval (conn : AppConn) : Outcome :=
  if conn.state.authenticated then
    let (conn, observed) := checkLimits clock conn
    (checkTotals clock conn).map id (observed ++ ·)
  else (conn, [])

/-! ## Traffic -/

/-- A datagram, with whether it goes to an address that is not accounted, and whether the leaky
bucket refuses it. -/
structure Datagram where
  totLen : UInt16
  garden : Bool
  refused : Bool

def inputUsage (datagram : Datagram) : Usage := ⟨1, 0, datagram.totLen.toUInt64, 0⟩

def outputUsage (datagram : Datagram) : Usage := ⟨0, 1, 0, datagram.totLen.toUInt64⟩

def count (usage : Usage) (datagram : Datagram) (conn : AppConn) : Outcome :=
  if conn.state.authenticated && !datagram.garden then
    ({ conn with state := { conn.state with usage := conn.state.usage.add usage } }, [.passed usage])
  else (conn, [])

def chilliAcctFromsub (datagram : Datagram) (conn : AppConn) : Outcome :=
  if conn.state.authenticated && datagram.refused then (conn, [])
  else
    let usage := if options.swapoctets then inputUsage datagram else outputUsage datagram
    let (conn, observed) := count usage datagram conn
    ({ conn with state := { conn.state with lastTime := clock.now, lastUpTime := clock.now } },
      observed)

def chilliAcctTosub (datagram : Datagram) (conn : AppConn) : Outcome :=
  if conn.state.authenticated && datagram.refused then (conn, [])
  else
    let usage := if options.swapoctets then outputUsage datagram else inputUsage datagram
    let (conn, observed) := count usage datagram conn
    ({ conn with state := { conn.state with lastTime := clock.now } }, observed)

/-! ## Requests of the client and of the portal -/

/-- `macok` says that the address is one of the allowed ones, `granted` is what `newip` gives for
`upprot_getip`, `dynamic` what it gives afterwards. -/
structure Request where
  addr : Option UInt32
  macok : Bool
  granted : Option UInt32
  dynamic : Option UInt32

/-- Local authentication by the MAC address; the flag says whether an address may still be allocated. -/
def macAuthenticate (history : SessionHistory) (request : Request) (conn : AppConn) :
    Outcome × Bool :=
  let open' := conn.uplink.isNone && !(conn.dnlink.any (·.isReserved)) && conn.dnprot = .dhcpNone
  if open' && request.macok then
    let conn := { conn with dnprot := .mac }
    if options.macallowlocal then (upprotGetip options clock history request.granted conn, true)
    else ((conn, []), !options.strictmacauth)
  else if open' && options.macauth then (({ conn with dnprot := .mac }, []), !options.strictmacauth)
  else ((conn, []), true)

def dynamicIp (request : Request) (allocate : Bool) (conn : AppConn) : Option AppConn :=
  match conn.uplink with
  | some _ => some conn
  | none =>
      if allocate then
        request.dynamic.map fun ip =>
          { conn with
            reqip := if conn.dnprot ≠ .dhcpNone && conn.hisip ≠ 0 then conn.hisip else conn.reqip
            hisip := ip
            uplink := some ip }
      else none

/-- What follows once there is an address. -/
def addressed (conn : AppConn) : AppConn :=
  -- if not already authenticated, ensure DNAT authstate
  let conn := if conn.state.authenticated then conn else conn.setAuthstate .dnat
  -- if IP was requested before authentication it was UAM
  let conn := if conn.dnprot = .dhcpNone then { conn with dnprot := .uam } else conn
  if options.dhcpnotidle then { conn with state := { conn.state with lastUpTime := clock.now } }
  else conn

def cbDhcpRequest (history : SessionHistory) (request : Request) (conn : AppConn) : Outcome :=
  let conn := { conn with reqip := request.addr.getD 0 }
  let ((conn, observed), allocate) := macAuthenticate options clock history request conn
  match dynamicIp request allocate conn with
  | none => (conn, observed)
  | some conn => (addressed options clock conn, observed)

inductive UamType where
  | login
  | logout
  | abort
  | challenge
  | notyet
  deriving DecidableEq

/-- `params` and `redir` as far as the options of the message say that they are there. -/
structure UamMsg where
  mtype : UamType
  params : Option SessionParams
  redir : Option (Int × UInt32)
  newSessionid : Bool

def UamMsg.setRedir (msg : UamMsg) (conn : AppConn) : AppConn :=
  match msg.redir with
  | some (authMode, userTime) => { conn with state := { conn.state with authMode, userTime } }
  | none => conn

def UamMsg.setParams (msg : UamMsg) (conn : AppConn) : AppConn :=
  { conn with params := msg.params.getD conn.params }

/-- A session that is authenticated already is not changed, unless this is its logout. -/
def uamPrepare (msg : UamMsg) (conn : AppConn) : AppConn :=
  if !conn.state.authenticated || msg.mtype = .logout then
    let conn := msg.setParams (msg.setRedir conn)
    if msg.newSessionid then setSessionid clock conn else conn
  else conn

def uamLogout (conn : AppConn) : Outcome :=
  let (conn, observed) :=
    if conn.state.authenticated then
      let (conn, observed) :=
        terminateFor clock conn (sessionUserLogoutUrl, terminateCauseUserRequest)
      ({ conn with params := { conn.params with sessiontimeout := 0, idletimeout := 0, expiration := 0 } },
        observed)
    else (conn, [])
  ({ conn.setAuthstate .dnat with uamabort := false, state := { conn.state with uamtime := clock.now } },
    observed)

def uamAbort (conn : AppConn) : Outcome :=
  terminateAppconn clock
    { conn.setAuthstate .dnat with uamabort := true, state := { conn.state with uamtime := 0 } }
    terminateCauseUserRequest

def uamMsg (history : SessionHistory) (granted : Option UInt32) (msg : UamMsg) (conn : AppConn) :
    Outcome :=
  if conn.dnlink.isNone then (conn, [])
  else
    let conn := uamPrepare clock msg conn
    match msg.mtype with
    | .login =>
        if conn.uamabort then ({ conn with uamabort := false }, [])
        else upprotGetip options clock history granted conn
    | .logout => uamLogout clock conn
    | .abort => uamAbort clock conn
    | .challenge =>
        ({ conn with uamabort := false, state := { conn.state with uamtime := clock.now } }, [])
    | .notyet => (conn, [])

def dhcpBlockMac (conn : AppConn) : AppConn := { conn.setAuthstate .drop with dnprot := .null }

end Operations

/-! ## All the connections -/

structure Pool where
  connections : Nat
  used : List AppConn
  free : List Nat

def Pool.empty : Pool := ⟨0, [], []⟩

/-- What is observed of one connection. -/
structure Entry where
  time : Int
  unit : Nat
  observed : Observed

section Connections

variable (options : SessionOptions) (clock : Clock)

def orDefault {α : Type} [DecidableEq α] [OfNat α 0] (default value : α) : α :=
  if default ≠ 0 ∧ value = 0 then default else value

def sessionParamDefaults (params : SessionParams) : SessionParams :=
  { params with
    sessiontimeout := orDefault options.defaults.sessiontimeout params.sessiontimeout
    idletimeout := orDefault options.defaults.idletimeout params.idletimeout
    bandwidthmaxdown := orDefault options.defaults.bandwidthmaxdown params.bandwidthmaxdown
    bandwidthmaxup := orDefault options.defaults.bandwidthmaxup params.bandwidthmaxup
    interimInterval := orDefault options.defaults.interimInterval params.interimInterval
    maxinputoctets := orDefault options.defaults.maxinputoctets params.maxinputoctets
    maxoutputoctets := orDefault options.defaults.maxoutputoctets params.maxoutputoctets
    warningoctets := orDefault options.defaults.warningoctets params.warningoctets
    period := orDefault options.defaults.period params.period
    start := orDefault options.defaults.start params.start
    expiration := orDefault options.defaults.expiration params.expiration }

/-- Zeroes, but for the unit and the default options; the downlink protocol is set right after. -/
def newConn (unit : Nat) : AppConn where
  unit := unit
  dnprot := .null
  dnlink := none
  uplink := none
  hisip := 0
  reqip := 0
  uamabort := false
  params := sessionParamDefaults options .zero
  state := .zero
  history := ⟨0, 0, 0⟩

def chilliNewConn (pool : Pool) : Option (AppConn × Pool) :=
  match pool.free with
  | [] =>
      if pool.connections = options.maxClients then none
      else
        let conn := newConn options (pool.connections + 1)
        some (conn, { pool with connections := pool.connections + 1, used := conn :: pool.used })
  | unit :: free =>
      let conn := newConn options unit
      some (conn, { pool with used := conn :: pool.used, free })

/-- `chilli_connect` for a connection from below. -/
def cbDhcpConnect (isReserved : Bool) (pool : Pool) : Pool :=
  match chilliNewConn options pool with
  | none => pool
  | some (conn, after) =>
      let conn :=
        setSessionid clock { conn with dnlink := some ⟨.none, isReserved⟩, dnprot := .dhcpNone }
      { after with used := conn :: pool.used }

def observe (unit : Nat) (observed : List Observed) : List Entry :=
  observed.map fun one => ⟨clock.now, unit, one⟩

/-- The operation on the connection with this unit. -/
def onUnit (unit : Nat) (operation : AppConn → Outcome) : List AppConn → List AppConn × List Entry
  | [] => ([], [])
  | conn :: rest =>
      if conn.unit = unit then
        let (conn, observed) := operation conn
        (conn :: rest, observe clock unit observed)
      else (onUnit unit operation rest).map (conn :: ·) id

def onEach (operation : AppConn → Outcome) : List AppConn → List AppConn × List Entry
  | [] => ([], [])
  | conn :: rest =>
      let (after, observed) := operation conn
      (onEach operation rest).map (after :: ·) (observe clock conn.unit observed ++ ·)

/-- Connections without a downlink are passed over. -/
def checkconn (conn : AppConn) : Outcome :=
  if conn.dnlink.isNone then (conn, []) else sessionInterval clock conn

def Pool.change (pool : Pool) (changed : List AppConn × List Entry) : Pool × List Entry :=
  ({ pool with used := changed.1 }, changed.2)

def freeconn (unit : Nat) (pool : Pool) : Pool :=
  { pool with used := pool.used.filter (·.unit ≠ unit), free := unit :: pool.free }

/-- Without a cause from below it is the one that was noted before. -/
def disconnectCause (termCause : UInt32) (conn : AppConn) : UInt32 :=
  if termCause ≠ 0 then termCause
  else if conn.state.terminateCause ≠ 0 then conn.state.terminateCause
  else terminateCauseLostCarrier

/-- A reserved connection is kept. -/
def sessionDisconnect (unit : Nat) (termCause : UInt32) (pool : Pool) : Pool × List Entry :=
  match pool.used.find? (·.unit = unit) with
  | none => (pool, [])
  | some conn =>
      let (after, entries) := pool.change (onUnit clock unit
        (fun conn => terminateAppconn clock conn (disconnectCause termCause conn)) pool.used)
      if conn.dnlink.any (·.isReserved) then (after, entries) else (freeconn unit after, entries)

def killconn (pool : Pool) : Pool × List Entry :=
  pool.change (onEach clock (fun conn => terminateAppconn clock conn terminateCauseNasReboot) pool.used)

end Connections

/-! ## Runs -/

/-- What happens to one connection.  `configure` stands for all that writes its parameters: the
attributes of an answer, the command socket, the options of a message. -/
inductive Action where
  | request (history : SessionHistory) (request : Request)
  | configure (params : SessionParams)
  | accept (history : SessionHistory)
  | getip (history : SessionHistory) (granted : Option UInt32)
  | reject
  | terminate (cause : UInt32)
  | uam (history : SessionHistory) (granted : Option UInt32) (msg : UamMsg)
  | fromsub (datagram : Datagram)
  | tosub (datagram : Datagram)
  | block

inductive Event where
  | tick (clock : Clock)
  | connect (isReserved : Bool)
  | disconnect (unit : Nat) (termCause : UInt32)
  | check
  | act (unit : Nat) (action : Action)

structure Daemon where
  clock : Clock
  pool : Pool

section Runs

variable (options : SessionOptions)

def perform (clock : Clock) (action : Action) (conn : AppConn) : Outcome :=
  match action with
  | .request history request => cbDhcpRequest options clock history request conn
  | .configure params => ({ conn with params }, [])
  | .accept history => dnprotAccept clock history conn
  | .getip history granted => upprotGetip options clock history granted conn
  | .reject => (dnprotReject options conn, [])
  | .terminate cause => terminateAppconn clock conn cause
  | .uam history granted msg => uamMsg options clock history granted msg conn
  | .fromsub datagram => chilliAcctFromsub options clock datagram conn
  | .tosub datagram => chilliAcctTosub options clock datagram conn
  | .block => (dhcpBlockMac conn, [])

def poolStep (clock : Clock) (pool : Pool) : Event → Pool × List Entry
  | .tick _ => (pool, [])
  | .connect isReserved => (cbDhcpConnect options clock isReserved pool, [])
  | .disconnect unit termCause => sessionDisconnect clock unit termCause pool
  | .check => pool.change (onEach clock (checkconn clock) pool.used)
  | .act unit action => pool.change (onUnit clock unit (perform options clock action) pool.used)

def step (daemon : Daemon) (event : Event) : Daemon × List Entry :=
  let (pool, entries) := poolStep options daemon.clock daemon.pool event
  match event with
  | .tick clock => (⟨clock, pool⟩, entries)
  | _ => (⟨daemon.clock, pool⟩, entries)

def run (daemon : Daemon) : List Event → Daemon × List Entry
  | [] => (daemon, [])
  | event :: events =>
      let (next, entries) := step options daemon event
      (run next events).map id (entries ++ ·)

end Runs

end Rut9xx.Chilli.Session
