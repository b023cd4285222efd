import Rut9xx.Httpd.Reassembly

namespace Rut9xx.Httpd

open Data

/-! # What a later connection shows of the history -/

variable {board : Board} {first second : Server} {event : Event} {conn : Nat}

/-- The type, the recorded size and the stored bytes of an upload that is complete. -/
structure Report where
  upgradeType : UpgradeType
  netBootFileXferSize : Nat
  stored : List UInt8

def Server.report (board : Board) (server : Server) : Report :=
  ⟨server.upgradeType, server.netBootFileXferSize,
    load server.ram board.loadAddr (server.dataPointer - board.loadAddr)⟩

structure Observation where
  output : Output
  completed : Option Report
  readyForUpgrade : Bool

def observe (board : Board) (server : Server) (event : Event) : Observation :=
  let (after, output) := httpdAppcall board server event
  ⟨output,
    if (server.conns event.conn).state = .uploadRequest ∧
        (after.conns event.conn).state = .fileRequest then some (after.report board) else none,
    after.readyForUpgrade⟩

/-- What is seen of the events of a connection, until it is closed or aborted. -/
def outcome (board : Board) (server : Server) : List Event → List Observation
  | [] => []
  | event :: rest =>
      observe board server event ::
        match feedOne board server event with
        | none => []
        | some after => outcome board after rest

/-- The events of a connection, from its opening on. -/
structure FreshConnection (conn : Nat) (events : List Event) : Prop where
  own : ∀ event ∈ events, event.conn = conn
  opens : ∃ event rest, events = event :: rest ∧ event.closed = false ∧ event.aborted = false ∧
    event.timedout = false ∧ event.poll = false ∧ event.connected = true

/-- Two servers that differ in nothing that a new connection can find out. -/
structure Agree (board : Board) (first second : Server) : Prop where
  ready : first.readyForUpgrade = second.readyForUpgrade
  failed : first.uploadFailed = second.uploadFailed
  postDone : first.readyForUpgrade = false → first.uploadFailed = false →
    first.postDone = second.postDone
  type : (board.disableUboot || board.disableArt) = true →
    first.upgradeType = second.upgradeType

/-! ## Two runs on one connection -/

/-- Two servers in the middle of the same upload. -/
inductive Uploading (board : Board) (conn : Nat) (first second : Server) : Prop where
  | waiting (delimiter : List UInt8) (total : Nat)
      (missing : first.dataStartFound = false)
      (boundary : first.boundary = .live delimiter) (same : second.boundary = .live delimiter)
      (pointer : first.dataPointer = board.loadAddr) (samePointer : second.dataPointer = board.loadAddr)
      (uploadTotal : (first.conns conn).uploadTotal = total) (large : 10240 ≤ total)
      (fits : total < 2 ^ 32)
  | receiving (received : List UInt8) (total : Nat)
      (underway : Underway first conn received.length total)
      (receiving : Receiving board first received total)
      (same : Receiving board second received total)
      (type : first.upgradeType = second.upgradeType)
      (room : received.length < total) (large : 33 ≤ total)
  | refused (started : first.dataStartFound = true) (failed : first.uploadFailed = true)
      (type : first.upgradeType = second.upgradeType)
      (pointer : first.dataPointer = second.dataPointer)
      (stored : load first.ram board.loadAddr (first.dataPointer - board.loadAddr) =
        load second.ram board.loadAddr (first.dataPointer - board.loadAddr))

structure Alike (board : Board) (conn : Nat) (first second : Server) : Prop where
  agree : Agree board first second
  sameConn : first.conns conn = second.conns conn
  found : first.dataStartFound = second.dataStartFound
  uploading : (first.conns conn).state = .uploadRequest → Uploading board conn first second

/-- The same answer from both, and the same upload completed if one is. -/
structure SameAnswer (board : Board) (conn : Nat) (before : HttpState)
    (one two : Server × Output) : Prop where
  output : one.2 = two.2
  sameConn : one.1.conns conn = two.1.conns conn
  ready : one.1.readyForUpgrade = two.1.readyForUpgrade
  report : before = .uploadRequest → (one.1.conns conn).state = .fileRequest →
    one.1.report board = two.1.report board
  alike : one.2 ≠ .close → one.2 ≠ .abort → Alike board conn one.1 two.1

theorem observe_same (state : (first.conns event.conn).state = (second.conns event.conn).state)
    (same : SameAnswer board event.conn (first.conns event.conn).state
      (httpdAppcall board first event) (httpdAppcall board second event)) :
    observe board first event = observe board second event := by
  simp only [observe, ← state, ← same.sameConn, ← same.output, ← same.ready]
  congr 1
  split
  · rename_i completed
    rw [same.report completed.1 completed.2]
  · rfl

theorem feedOne_same {before : HttpState}
    (same : SameAnswer board event.conn before
      (httpdAppcall board first event) (httpdAppcall board second event)) :
    (feedOne board first event = none ∧ feedOne board second event = none) ∨
      ∃ one two, feedOne board first event = some one ∧ feedOne board second event = some two ∧
        Alike board event.conn one two := by
  obtain ⟨output, -, -, -, alike⟩ := same
  unfold feedOne
  generalize httpdAppcall board first event = one at output alike
  generalize httpdAppcall board second event = two at output alike
  obtain ⟨one, answer⟩ := one
  obtain ⟨two, answer'⟩ := two
  obtain rfl : answer = answer' := output
  cases answer with
  | close => exact Or.inl ⟨rfl, rfl⟩
  | abort => exact Or.inl ⟨rfl, rfl⟩
  | quiet => exact Or.inr ⟨one, two, rfl, rfl, alike (by simp) (by simp)⟩
  | send => exact Or.inr ⟨one, two, rfl, rfl, alike (by simp) (by simp)⟩
  | sendSerial => exact Or.inr ⟨one, two, rfl, rfl, alike (by simp) (by simp)⟩

/-! ## The answers that end or change no upload -/

theorem Alike.setConn {hs : HttpdState} (agree : Agree board first second)
    (found : first.dataStartFound = second.dataStartFound) (state : hs.state ≠ .uploadRequest) :
    Alike board conn (first.setConn conn hs) (second.setConn conn hs) :=
  ⟨⟨agree.ready, agree.failed, agree.postDone, agree.type⟩, by simp, found, by simp [state]⟩

theorem Alike.reset (agree : Agree board first second) :
    Alike board conn (first.reset conn) (second.reset conn) :=
  ⟨⟨agree.ready, agree.failed, agree.postDone, agree.type⟩, by simp [reset_same], rfl,
    by simp [reset_same]⟩

/-- A connection that is ended keeps nothing to compare. -/
theorem SameAnswer.ended {before : HttpState} {output : Output}
    (ready : first.readyForUpgrade = second.readyForUpgrade)
    (last : output = .close ∨ output = .abort) :
    SameAnswer board conn before (first.reset conn, output) (second.reset conn, output) := by
  refine ⟨rfl, by simp [reset_same], ready, ?_, ?_⟩
  · simp [reset_same]
  · intro notClosed notAborted
    obtain rfl | rfl := last
    · exact absurd rfl notClosed
    · exact absurd rfl notAborted

theorem SameAnswer.quiet {before : HttpState} {output : Output}
    (notUpload : before = .uploadRequest → (first.conns conn).state ≠ .fileRequest)
    (alike : Alike board conn first second) :
    SameAnswer board conn before (first, output) (second, output) :=
  ⟨rfl, alike.sameConn, alike.agree.ready,
    fun uploading served => absurd served (notUpload uploading), fun _ _ => alike⟩

theorem SameAnswer.servePage {before : HttpState} (page : Page) (request : before ≠ .uploadRequest)
    (agree : Agree board first second)
    (sameConn : first.conns event.conn = second.conns event.conn)
    (found : first.dataStartFound = second.dataStartFound) :
    SameAnswer board event.conn before (first.servePage board event page)
      (second.servePage board event page) := by
  simp only [Server.servePage, ← sameConn]
  exact .quiet (fun uploading => absurd uploading request) (.setConn agree found (by simp))

/-! ## The first chunk -/

/-- A type that is not taken over belongs to an upgrade that is switched off. -/
theorem inputChoice_none {part : List UInt8} {refused : Bool}
    (chosen : inputChoice board part = some (none, refused)) :
    (board.disableUboot || board.disableArt) = true ∧ refused = true := by
  unfold inputChoice at chosen
  split at chosen
  · cases chosen
  · split at chosen
    · split at chosen
      · rename_i disabled
        cases chosen
        simp [disabled]
      · cases chosen
    · split at chosen
      · split at chosen
        · rename_i disabled
          cases chosen
          simp [disabled]
        · cases chosen
      · cases chosen

theorem firstChunk_spec {delimiter data : List UInt8} {chunk : FirstChunk}
    (found : firstChunk board delimiter data = some chunk) :
    (∃ part, inputChoice board part = some chunk.choice) ∧
      chunk.header + chunk.data.length ≤ data.length ∧ delimiter.length ≤ data.length := by
  simp only [firstChunk, Option.bind_eq_bind, Option.bind_eq_some_iff] at found
  obtain ⟨start, starts, choice, chosen, blank, blanks, same⟩ := found
  cases same
  have fits := strstr_within starts
  have fitsBlank := strstr_within blanks
  have short : (cString data).length ≤ data.length := cString_front.length_le
  have four : eol2.length = 4 := rfl
  rw [List.length_drop] at fitsBlank
  refine ⟨⟨_, chosen⟩, ?_, by omega⟩
  change blank + 4 + (data.drop (start + blank + 4)).length ≤ data.length
  rw [List.length_drop]
  omega

theorem Agree.chooseType (agree : Agree board first second) (choice : Option UpgradeType × Bool) :
    Agree board (first.chooseType choice) (second.chooseType choice) := by
  refine ⟨agree.ready, ?_, ?_, ?_⟩
  · simp only [Server.chooseType, agree.failed]
  · intro waiting accepted
    simp only [Server.chooseType, Bool.or_eq_false_iff] at accepted
    exact agree.postDone waiting accepted.1
  · intro disabled
    simp only [Server.chooseType, agree.type disabled]

theorem Agree.sameType {part : List UInt8} {choice : Option UpgradeType × Bool}
    (agree : Agree board first second) (chosen : inputChoice board part = some choice) :
    (first.chooseType choice).upgradeType = (second.chooseType choice).upgradeType := by
  obtain ⟨type, refused⟩ := choice
  cases type with
  | some type => rfl
  | none => exact (agree.chooseType _).type (inputChoice_none chosen).1

theorem Alike.begin {delimiter : List UInt8} {total : Nat} {chunk : FirstChunk}
    (agree : Agree board first second)
    (sameConn : first.conns event.conn = second.conns event.conn)
    (state : (first.conns event.conn).state = .uploadRequest)
    (uploadTotal : (first.conns event.conn).uploadTotal = total) (large : 10240 ≤ total)
    (fits : total < 2 ^ 32) (pointer : first.dataPointer = board.loadAddr)
    (samePointer : second.dataPointer = board.loadAddr)
    (found : firstChunk board delimiter event.data = some chunk) :
    Alike board event.conn
      { first.begin board event.conn delimiter chunk with dataStartFound := true }
      { second.begin board event.conn delimiter chunk with dataStartFound := true } := by
  obtain ⟨⟨part, chosen⟩, covers, delimiterFits⟩ := firstChunk_spec found
  have segment := event.data_le
  simp only [uipTcpMss] at segment
  have type := agree.sameType chosen
  have size : sub32 total (chunk.header + delimiter.length + 6) =
      total - (chunk.header + delimiter.length + 6) := sub32_of_le (by omega) fits
  generalize rest : total - (chunk.header + delimiter.length + 6) = left at size
  have failed : (first.begin board event.conn delimiter chunk).uploadFailed =
      (second.begin board event.conn delimiter chunk).uploadFailed := by
    simp only [Server.begin, Server.storeData, Server.setConn, ← sameConn]
    rw [show (first.chooseType chunk.choice).upgradeType = _ from type,
      (agree.chooseType chunk.choice).failed]
  refine ⟨⟨agree.ready, failed, ?_, fun _ => type⟩, ?_, rfl, fun _ => ?_⟩
  · intro waiting accepted
    simp only [Server.begin, Server.storeData, Server.setConn, Server.chooseType,
      Bool.or_eq_false_iff] at accepted
    exact agree.postDone waiting accepted.1.1
  · simp only [begin_conn, ← sameConn]
  · cases accepted : (first.begin board event.conn delimiter chunk).uploadFailed with
    | true =>
        refine .refused rfl accepted type ?_ ?_
        · simp only [Server.begin, Server.storeData, Server.setConn, Server.chooseType, pointer,
            samePointer]
        · simp only [Server.begin, Server.storeData, Server.setConn, Server.chooseType, pointer,
            samePointer, Nat.add_sub_cancel_left, load_store]
    | false =>
        obtain ⟨choice, header, data⟩ := chunk
        obtain ⟨name, refused⟩ := choice
        change header + data.length ≤ event.data.length at covers
        change total - (header + delimiter.length + 6) = left at rest
        simp only [Server.begin, Server.storeData, Server.setConn, Server.chooseType, uploadTotal,
          size, Bool.or_eq_false_iff] at accepted
        obtain ⟨⟨accepted, rfl⟩, within⟩ := accepted
        cases name with
        | none => cases (inputChoice_none chosen).2
        | some name =>
            have underway := Underway.begin board delimiter ⟨(some name, false), header, data⟩
              state (rfl : true = true)
            simp only [uploadTotal, size] at underway
            refine .receiving data left underway (.begin rfl accepted pointer ?_ within)
              (.begin rfl (agree.failed ▸ accepted) samePointer ?_ within) rfl ?_ ?_
            · rw [uploadTotal, size]
            · rw [← sameConn, uploadTotal, size]
            · omega
            · omega

/-! ## Requests -/

theorem Agree.accept {total : Nat} {delimiter : List UInt8} (agree : Agree board first second) :
    Agree board (first.accept board conn total delimiter)
      (second.accept board conn total delimiter) :=
  ⟨agree.ready, agree.failed, agree.postDone, agree.type⟩

theorem Alike.opens {total : Nat} {delimiter : List UInt8} (alike : Alike board event.conn first second)
    (opens : Opens event total delimiter) :
    Alike board event.conn (first.open board event total delimiter)
      (second.open board event total delimiter) := by
  have agree : Agree board (first.accept board event.conn total delimiter)
    (second.accept board event.conn total delimiter) := alike.agree.accept
  have sameConn : (first.accept board event.conn total delimiter).conns event.conn =
      (second.accept board event.conn total delimiter).conns event.conn := by
    rw [accept_conn, accept_conn, alike.sameConn]
  cases found : firstChunk board delimiter event.data with
  | some chunk =>
      rw [open_found found, open_found found]
      exact .begin agree sameConn (by simp) (by simp) opens.large (contentLength_lt opens.declared)
        rfl rfl found
  | none =>
      have missing {server : Server} : server.open board event total delimiter =
          { (nameSeen board delimiter event.data).elim
              (server.accept board event.conn total delimiter)
              (server.accept board event.conn total delimiter).chooseType with
            dataStartFound := false } := by
        simp only [Server.open, findAndStore_missing board accept_boundaryString found]
      have uploading : ∀ one two : Server, one.dataStartFound = false →
          one.boundary = .live delimiter → two.boundary = .live delimiter →
          one.dataPointer = board.loadAddr → two.dataPointer = board.loadAddr →
          (one.conns event.conn).uploadTotal = total → Uploading board event.conn one two :=
        fun one two missing boundary same pointer samePointer uploadTotal =>
          .waiting delimiter total missing boundary same pointer samePointer uploadTotal opens.large
            (contentLength_lt opens.declared)
      rw [missing, missing]
      cases nameSeen board delimiter event.data with
      | none =>
          exact ⟨⟨agree.ready, agree.failed, agree.postDone, agree.type⟩, sameConn, rfl,
            fun _ => uploading _ _ rfl rfl rfl rfl rfl (by simp)⟩
      | some choice =>
          have chosen := agree.chooseType choice
          exact ⟨⟨chosen.ready, chosen.failed, chosen.postDone, chosen.type⟩, sameConn, rfl,
            fun _ => uploading _ _ rfl rfl rfl rfl rfl (by simp [Server.chooseType])⟩

theorem SameAnswer.refused {before : HttpState} (agree : Agree board first second)
    {boundary other : Boundary} :
    SameAnswer board event.conn before
      (({ first with boundary := boundary } : Server).refuse event)
      (({ second with boundary := other } : Server).refuse event) :=
  .ended agree.ready (Or.inr rfl)

theorem SameAnswer.post (alike : Alike board event.conn first second) :
    SameAnswer board event.conn .none (first.handlePost board event)
      (second.handlePost board event) := by
  have agree := alike.agree
  have refused {boundary other : Boundary} : SameAnswer board event.conn .none
      (({ first with boundary := boundary } : Server).refuse event)
      (({ second with boundary := other } : Server).refuse event) := .refused agree
  cases declared : contentLength event with
  | none =>
      simp only [Server.handlePost, declared]
      exact refused
  | some total =>
      by_cases small : total < 10240
      · simp only [Server.handlePost, declared, if_pos small]
        have reset : Alike board event.conn (first.reset event.conn) (second.reset event.conn) :=
          .reset agree
        exact .servePage _ (by simp) reset.agree reset.sameConn reset.found
      · cases parameter : boundaryParameter event with
        | none =>
            simp only [Server.handlePost, declared, if_neg small, parameter]
            exact refused
        | some value =>
            cases memory : event.memory with
            | false =>
                simp only [Server.handlePost, declared, if_neg small, parameter, memory, if_true]
                exact refused
            | true =>
                have opens : Opens event total (text "--" ++ value) :=
                  ⟨declared, Nat.le_of_not_lt small, ⟨value, parameter, rfl⟩, memory⟩
                rw [handlePost_opens opens, handlePost_opens opens]
                exact .quiet (by simp) (alike.opens opens)

theorem SameAnswer.request (alike : Alike board event.conn first second) :
    SameAnswer board event.conn .none (first.handleRequest board event)
      (second.handleRequest board event) := by
  have agree := alike.agree
  have sameConn := alike.sameConn
  have found := alike.found
  have refused : SameAnswer board event.conn .none (first.refuse event) (second.refuse event) :=
    .refused agree
  have request : HttpState.none ≠ .uploadRequest := by simp
  unfold Server.handleRequest
  cases event.isGet with
  | true =>
      simp only [if_true, Server.handleGet]
      cases event.nameLength with
      | none => exact refused
      | some length =>
          simp only
          split
          · exact .servePage _ request agree sameConn found
          · exact .servePage _ request agree sameConn found
  | false =>
      simp only [Bool.false_eq_true, if_false]
      cases event.isPost with
      | true =>
          simp only [if_true]
          exact .post alike
      | false =>
          simp only [Bool.false_eq_true, if_false]
          cases event.isSerial board with
          | true =>
              simp only [if_true, ← sameConn]
              exact .quiet (by simp) (.setConn agree found (by simp))
          | false => exact refused

/-! ## Segments of an upload -/

theorem load_within {ram : Memory UInt8} {address skipped count : Nat} {data : List UInt8}
    (holds : Holds ram address data) (within : skipped + count ≤ data.length) :
    load ram (address + skipped) count = (data.drop skipped).take count := by
  apply List.ext_getElem?
  intro index
  rw [load_getElem?, List.getElem?_take]
  split
  · rename_i inside
    have byte := congrArg (fun bytes => bytes[skipped + index]?) holds
    simp only [load_getElem?, if_pos (show skipped + index < data.length by omega)] at byte
    rw [List.getElem?_drop, ← byte, Nat.add_assoc]
  · rfl

/-- What is checked of an upload lies within it. -/
theorem verdict_same {received : List UInt8} {total : Nat}
    (receiving : Receiving board first received total)
    (same : Receiving board second received total)
    (type : first.upgradeType = second.upgradeType) (large : 33 ≤ total)
    (whole : total ≤ received.length) :
    verdict board first (sub32 total (trailer first.upgradeType)) =
      verdict board second (sub32 total (trailer second.upgradeType)) := by
  have bound := total_le receiving.within
  have fits := board.loadAddr_fits
  have flash := board.flashSize_lt
  have room := board.room
  have loaded (address count : Nat) (inside : address + count ≤ received.length) :
      load first.ram (board.loadAddr + address) count =
        load second.ram (board.loadAddr + address) count := by
    rw [load_within receiving.stored inside, load_within same.stored inside]
  have most := trailer_le first.upgradeType
  have size : sub32 total (trailer first.upgradeType) = total - trailer first.upgradeType :=
    sub32_of_le (by omega) (by omega)
  rw [← type, size]
  generalize shorter : total - trailer first.upgradeType = size
  have front : load first.ram board.loadAddr size = load second.ram board.loadAddr size :=
    loaded 0 size (by omega)
  unfold verdict
  rw [← type, front]
  cases kind : first.upgradeType with
  | firmware => simp
  | art => simp
  | uboot =>
      rw [kind, trailer] at shorter
      have sum : first.ramAt (board.loadAddr + size) 10 = second.ramAt (board.loadAddr + size) 10 := by
        simp only [Server.ramAt, Nat.mod_eq_of_lt (show board.loadAddr + size < 2 ^ 32 by omega)]
        exact loaded size 10 (by omega)
      have model : first.ramAt (board.loadAddr + size + 2 ^ 32 - 22) 12 =
          second.ramAt (board.loadAddr + size + 2 ^ 32 - 22) 12 := by
        have place : (board.loadAddr + size + 2 ^ 32 - 22) % 2 ^ 32 =
            board.loadAddr + (size - 22) := by omega
        simp only [Server.ramAt, place]
        exact loaded (size - 22) 12 (by omega)
      rw [sum, model]

theorem SameAnswer.complete {before : HttpState} (agree : Agree board first second)
    (sameConn : first.conns event.conn = second.conns event.conn)
    (type : first.upgradeType = second.upgradeType)
    (pointer : first.dataPointer = second.dataPointer)
    (stored : load first.ram board.loadAddr (first.dataPointer - board.loadAddr) =
      load second.ram board.loadAddr (first.dataPointer - board.loadAddr))
    (judged : first.uploadFailed = false →
      verdict board first (sub32 (first.conns event.conn).uploadTotal (trailer first.upgradeType)) =
        verdict board second
          (sub32 (second.conns event.conn).uploadTotal (trailer second.upgradeType))) :
    SameAnswer board event.conn before (first.complete board event)
      (second.complete board event) := by
  have size : sub32 (first.conns event.conn).uploadTotal (trailer first.upgradeType) =
      sub32 (second.conns event.conn).uploadTotal (trailer second.upgradeType) := by
    rw [sameConn, type]
  have page : (if first.uploadFailed then Page.fail else verdict board first
        (sub32 (first.conns event.conn).uploadTotal (trailer first.upgradeType))) =
      if second.uploadFailed then Page.fail else verdict board second
        (sub32 (second.conns event.conn).uploadTotal (trailer second.upgradeType)) := by
    rw [← agree.failed]
    cases accepted : first.uploadFailed with
    | true => rfl
    | false => exact judged accepted
  rw [size] at page
  simp only [Server.complete, Server.servePage, size, page, reset_same]
  refine ⟨rfl, by simp, agree.ready, ?_, fun _ _ => ?_⟩
  · intro _ _
    change Report.mk _ _ _ = Report.mk _ _ _
    rw [Report.mk.injEq]
    exact ⟨type, rfl, pointer ▸ stored⟩
  · exact ⟨⟨agree.ready, rfl, fun _ _ => rfl, fun _ => type⟩, by simp, rfl, by simp⟩

theorem Receiving.load_eq {received : List UInt8} {total : Nat}
    (receiving : Receiving board first received total)
    (same : Receiving board second received total) :
    first.dataPointer = second.dataPointer ∧
      load first.ram board.loadAddr (first.dataPointer - board.loadAddr) =
        load second.ram board.loadAddr (first.dataPointer - board.loadAddr) := by
  refine ⟨receiving.pointer.trans same.pointer.symm, ?_⟩
  rw [receiving.pointer, Nat.add_sub_cancel_left, receiving.stored, same.stored]

/-- The connection is the same in both after a segment of the file. -/
theorem advance_conn (event : Event) (sameConn : first.conns event.conn = second.conns event.conn) :
    (first.advance event).conns event.conn = (second.advance event).conns event.conn := by
  have conn (server : Server) : (server.advance event).conns event.conn =
      { server.conns event.conn with
        upload := ((server.conns event.conn).upload + event.data.length) % 2 ^ 32 } := by
    unfold Server.advance
    simp only
    split
    · simp
    · simp [Server.storeData]
  rw [conn, conn, sameConn]

theorem advance_globals (server : Server) (event : Event) :
    (server.advance event).readyForUpgrade = server.readyForUpgrade ∧
      (server.advance event).uploadFailed = server.uploadFailed ∧
        (server.advance event).postDone = server.postDone ∧
          (server.advance event).upgradeType = server.upgradeType ∧
            (server.advance event).dataStartFound = server.dataStartFound := by
  unfold Server.advance
  simp only
  split <;> exact ⟨rfl, rfl, rfl, rfl, rfl⟩

theorem Agree.advance (agree : Agree board first second) :
    Agree board (first.advance event) (second.advance event) := by
  obtain ⟨ready, failed, postDone, type, -⟩ := advance_globals first event
  obtain ⟨ready', failed', postDone', type', -⟩ := advance_globals second event
  constructor
  · rw [ready, ready', agree.ready]
  · rw [failed, failed', agree.failed]
  · rw [ready, failed, postDone, postDone']
    exact agree.postDone
  · rw [type, type']
    exact agree.type

theorem SameAnswer.receiving {received : List UInt8} {total : Nat}
    (alike : Alike board event.conn first second)
    (underway : Underway first event.conn received.length total)
    (receiving : Receiving board first received total) (same : Receiving board second received total)
    (type : first.upgradeType = second.upgradeType) (room : received.length < total)
    (large : 33 ≤ total) :
    SameAnswer board event.conn .uploadRequest (first.handleUpload board event)
      (second.handleUpload board event) := by
  have agree : Agree board (first.advance event) (second.advance event) := alike.agree.advance
  have sameConn := advance_conn event alike.sameConn
  have bound := total_lt receiving.within
  have segment := event.data_le
  simp only [uipTcpMss] at segment
  have next := underway.advance
  have length : (received.length + event.data.length) % 2 ^ 32 = (received ++ event.data).length := by
    rw [List.length_append, Nat.mod_eq_of_lt (by omega)]
  rw [length] at next
  have typeNext : (first.advance event).upgradeType = (second.advance event).upgradeType := by
    rw [advance_type, advance_type, type]
  rw [handleUpload_started board underway.started,
    handleUpload_started board (alike.found ▸ underway.started), ← alike.sameConn, underway.upload,
    underway.uploadTotal, length]
  by_cases reached : (received ++ event.data).length ≥ total
  · rw [if_pos reached, if_pos reached]
    obtain ⟨pointer, stored⟩ := receiving.advance.load_eq same.advance
    refine .complete agree sameConn typeNext pointer stored (fun _ => ?_)
    rw [← sameConn, next.uploadTotal]
    exact verdict_same receiving.advance same.advance typeNext large reached
  · rw [if_neg reached, if_neg reached]
    refine .quiet (fun _ => by simp [next.state]) ⟨agree, sameConn, ?_, fun _ => ?_⟩
    · rw [next.started, (advance_globals second event).2.2.2.2, ← alike.found, underway.started]
    · exact .receiving _ total next receiving.advance same.advance typeNext (Nat.lt_of_not_le reached)
        large

theorem SameAnswer.afterRefusal (alike : Alike board event.conn first second)
    (state : (first.conns event.conn).state = .uploadRequest)
    (started : first.dataStartFound = true) (failed : first.uploadFailed = true)
    (type : first.upgradeType = second.upgradeType)
    (pointer : first.dataPointer = second.dataPointer)
    (stored : load first.ram board.loadAddr (first.dataPointer - board.loadAddr) =
      load second.ram board.loadAddr (first.dataPointer - board.loadAddr)) :
    SameAnswer board event.conn .uploadRequest (first.handleUpload board event)
      (second.handleUpload board event) := by
  have agree : Agree board (first.advance event) (second.advance event) := alike.agree.advance
  have sameConn := advance_conn event alike.sameConn
  have typeNext : (first.advance event).upgradeType = (second.advance event).upgradeType := by
    rw [advance_type, advance_type, type]
  obtain ⟨failedNext, ram, kept⟩ := advance_refused event failed
  obtain ⟨-, ram', kept'⟩ := advance_refused event (alike.agree.failed ▸ failed)
  have pointerNext : (first.advance event).dataPointer = (second.advance event).dataPointer := by
    rw [kept, kept', pointer]
  have storedNext : load (first.advance event).ram board.loadAddr
        ((first.advance event).dataPointer - board.loadAddr) =
      load (second.advance event).ram board.loadAddr
        ((first.advance event).dataPointer - board.loadAddr) := by
    rw [ram, ram', kept, stored]
  rw [handleUpload_started board started, handleUpload_started board (alike.found ▸ started),
    ← alike.sameConn]
  split
  · refine .complete agree sameConn typeNext pointerNext storedNext (fun accepted => ?_)
    rw [failedNext] at accepted
    cases accepted
  · have underway : Underway first event.conn _ _ := ⟨state, started, rfl, rfl⟩
    have next := underway.advance
    refine .quiet (fun _ => by simp [next.state]) ⟨agree, sameConn, ?_, fun _ => ?_⟩
    · rw [next.started, (advance_globals second event).2.2.2.2, ← alike.found, started]
    · exact .refused next.started failedNext typeNext pointerNext storedNext

theorem SameAnswer.upload (alike : Alike board event.conn first second)
    (state : (first.conns event.conn).state = .uploadRequest) :
    SameAnswer board event.conn .uploadRequest (first.handleUpload board event)
      (second.handleUpload board event) := by
  have agree := alike.agree
  have sameConn := alike.sameConn
  cases alike.uploading state with
  | waiting delimiter total missing boundary same pointer samePointer uploadTotal large fits =>
      have missing' : second.dataStartFound = false := alike.found ▸ missing
      have string : first.boundaryString event = some delimiter := by
        rw [Server.boundaryString, boundary]
      have string' : second.boundaryString event = some delimiter := by
        rw [Server.boundaryString, same]
      simp only [Server.handleUpload, missing, missing', if_true]
      cases found : firstChunk board delimiter event.data with
      | some chunk =>
          simp only [findAndStore_found string found, findAndStore_found string' found, if_true]
          refine .quiet (fun _ => ?_)
            (.begin agree sameConn state uploadTotal large fits pointer samePointer found)
          simp [begin_conn, state]
      | none =>
          simp only [findAndStore_missing board string found,
            findAndStore_missing board string' found, Bool.false_eq_true, if_false]
          cases nameSeen board delimiter event.data with
          | none => exact .refused agree
          | some choice => exact .refused (agree.chooseType choice)
  | receiving received total underway receiving same type room large =>
      exact .receiving alike underway receiving same type room large
  | refused started failed type pointer stored =>
      exact .afterRefusal alike state started failed type pointer stored

/-! ## Every event -/

theorem SameAnswer.acked (alike : Alike board event.conn first second) :
    SameAnswer board event.conn (first.conns event.conn).state (first.handleAck event)
      (second.handleAck event) := by
  have sameConn := alike.sameConn
  have agree := alike.agree
  simp only [Server.handleAck, ← sameConn]
  split
  · rename_i served
    split
    · refine .ended ?_ (Or.inl rfl)
      cases waiting : first.readyForUpgrade with
      | true =>
          have waiting' : second.readyForUpgrade = true := agree.ready ▸ waiting
          split <;> split <;> simp [waiting, waiting']
      | false =>
          have waiting' : second.readyForUpgrade = false := agree.ready ▸ waiting
          cases failed : first.uploadFailed with
          | true =>
              have failed' : second.uploadFailed = true := agree.failed ▸ failed
              split <;> split <;> simp [waiting, waiting', failed']
          | false =>
              have failed' : second.uploadFailed = false := agree.failed ▸ failed
              simp only [agree.postDone waiting failed, failed', waiting']
              split <;> simp [waiting, waiting']
    · exact .quiet (by simp [served]) (.setConn agree alike.found (by simp [served]))
  · rename_i notServed
    exact .quiet (fun _ => notServed) alike

theorem Alike.counted {count : Nat} (alike : Alike board conn first second) :
    Alike board conn (first.setConn conn { first.conns conn with count := count })
      (second.setConn conn { first.conns conn with count := count }) := by
  obtain ⟨agree, sameConn, found, uploading⟩ := alike
  refine ⟨⟨agree.ready, agree.failed, agree.postDone, agree.type⟩, by simp, found, ?_⟩
  intro state
  rw [setConn_same] at state
  cases uploading state with
  | waiting delimiter total missing boundary same pointer samePointer uploadTotal large fits =>
      exact .waiting delimiter total missing boundary same pointer samePointer
        (by simpa using uploadTotal) large fits
  | receiving received total underway receiving same type room large =>
      exact .receiving received total
        ⟨by simpa using state, underway.started, by simpa using underway.upload,
          by simpa using underway.uploadTotal⟩
        ⟨receiving.pointer, receiving.stored, receiving.accepted, receiving.within⟩
        ⟨same.pointer, same.stored, same.accepted, same.within⟩ type room large
  | refused started failed type pointer stored => exact .refused started failed type pointer stored

theorem SameAnswer.appcall (event : Event) (alike : Alike board event.conn first second) :
    SameAnswer board event.conn (first.conns event.conn).state (httpdAppcall board first event)
      (httpdAppcall board second event) := by
  have sameConn := alike.sameConn
  have agree := alike.agree
  simp only [httpdAppcall, ← sameConn]
  split
  · exact .ended agree.ready (Or.inl rfl)
  split
  · exact .ended agree.ready (Or.inr rfl)
  split
  · split
    · exact .ended agree.ready (Or.inr rfl)
    · exact .quiet (fun uploading => by simp [uploading]) alike.counted
  split
  · exact .quiet (by simp [reset_same]) (.reset agree)
  split
  · rename_i request
    simp only [Bool.and_eq_true, decide_eq_true_eq] at request
    rw [request.2]
    exact .request alike
  split
  · exact .ended agree.ready (Or.inl rfl)
  split
  · exact .acked alike
  split
  · split
    · rename_i served
      exact .quiet (by simp [served]) alike
    · rename_i notServed
      exact .quiet (fun _ => notServed) alike
  split
  · rename_i upload
    simp only [Bool.and_eq_true, decide_eq_true_eq] at upload
    rw [upload.2]
    exact .upload alike upload.2
  · exact .quiet (fun uploading => by simp [uploading]) alike

/-- Two alike servers answer the rest of a connection alike. -/
theorem outcome_same {events : List Event} (own : ∀ event ∈ events, event.conn = conn)
    (alike : Alike board conn first second) :
    outcome board first events = outcome board second events := by
  induction events generalizing first second with
  | nil => rfl
  | cons event rest ih =>
      obtain rfl := own event List.mem_cons_self
      have same := SameAnswer.appcall event alike
      have restOwn : ∀ later ∈ rest, later.conn = event.conn :=
        fun later member => own later (List.mem_cons_of_mem _ member)
      rw [outcome, outcome, observe_same (by rw [alike.sameConn]) same]
      obtain ⟨none, none'⟩ | ⟨one, two, taken, taken', next⟩ := feedOne_same same
      · rw [none, none']
      · rw [taken, taken']
        exact congrArg _ (ih restOwn next)

/-- A new connection finds out nothing in which the two servers agree. -/
theorem outcome_of_agree {events : List Event} (agree : Agree board first second)
    (fresh : FreshConnection conn events) :
    outcome board first events = outcome board second events := by
  obtain ⟨own, event, rest, rfl, closed, aborted, timedout, poll, connected⟩ := fresh
  obtain rfl := own event List.mem_cons_self
  have opened (server : Server) :
      httpdAppcall board server event = (server.reset event.conn, .quiet) := by
    simp [httpdAppcall, closed, aborted, timedout, poll, connected]
  have alike : Alike board event.conn (first.reset event.conn) (second.reset event.conn) :=
    .reset agree
  rw [outcome, outcome, feedOne_quiet (opened first), feedOne_quiet (opened second)]
  simp only [observe, opened, reset_same]
  rw [outcome_same (fun later member => own later (List.mem_cons_of_mem _ member)) alike]
  simp [Server.reset, agree.ready]

/-! ## What a new connection can find out -/

theorem outcome_drop {server after : Server} {events rest : List Event}
    (fed : feed board server events = some after) :
    (outcome board server (events ++ rest)).drop events.length = outcome board after rest := by
  induction events generalizing server with
  | nil =>
      cases fed
      rfl
  | cons event events ih =>
      rw [feed_cons, Option.bind_eq_some_iff] at fed
      obtain ⟨next, taken, fed⟩ := fed
      rw [List.cons_append, outcome, taken, List.length_cons, List.drop_succ_cons]
      exact ih fed

/-- What is seen of an event is the same, if all that is seen of the connection is. -/
theorem observe_of_outcome {events : List Event} {one two : Server}
    (same : outcome board first (events ++ [event]) = outcome board second (events ++ [event]))
    (fed : feed board first events = some one) (fed' : feed board second events = some two) :
    observe board one event = observe board two event := by
  have dropped := congrArg (List.drop events.length) same
  rw [outcome_drop fed, outcome_drop fed', outcome, outcome] at dropped
  exact (List.cons.inj dropped).1

def opening : Event :=
  { segment 0 [] (Nat.zero_le _) with connected := true, newdata := false }

theorem feed_opening (server : Server) : feedOne board server opening = some (server.reset 0) :=
  feedOne_quiet rfl

/-- A connection with the sample upload. -/
def sampleConnection (type : UpgradeType) : List Event :=
  (opening :: sampleEvents false type) ++ [sampleLast false]

theorem sampleConnection_fresh (type : UpgradeType) : FreshConnection 0 (sampleConnection type) := by
  refine ⟨?_, opening, sampleEvents false type ++ [sampleLast false], rfl, rfl, rfl, rfl, rfl, rfl⟩
  intro event member
  rw [sampleConnection, List.cons_append, List.mem_cons, sampleEvents, List.cons_append,
    List.mem_cons, List.mem_append, List.mem_singleton] at member
  obtain rfl | rfl | inside | rfl := member
  · rfl
  · rfl
  · exact (sampleMiddle_isData inside).1
  · rfl

theorem foldl_advance (events : List Event) (server : Server) :
    (events.foldl Server.advance server).uploadFailed = server.uploadFailed ∧
      (events.foldl Server.advance server).upgradeType = server.upgradeType := by
  induction events generalizing server with
  | nil => exact ⟨rfl, rfl⟩
  | cons event events ih =>
      obtain ⟨-, failed, -, type, -⟩ := advance_globals server event
      obtain ⟨failedNext, typeNext⟩ := ih (server.advance event)
      exact ⟨failedNext.trans failed, typeNext.trans type⟩

theorem verdict_ne_fail {server : Server} {size : Nat} : verdict board server size ≠ .fail := by
  unfold verdict
  split
  · simp
  split
  · simp
  split
  · simp
  · simp

theorem sampleOpened_judged (board : Board) (server : Server) (type : UpgradeType)
    (choice : Option UpgradeType × Bool) :
    (sampleOpened board server type choice).uploadFailed = (server.uploadFailed || choice.2 ||
        sizeRefused board (choice.1.getD server.upgradeType) 10233) ∧
      (sampleOpened board server type choice).upgradeType = choice.1.getD server.upgradeType := by
  have size : sub32 10300 (57 + (text "--xx").length + 6) = 10233 := by rfl
  refine ⟨?_, rfl⟩
  simp only [sampleOpened, Server.begin, Server.storeData, accept_conn, samplePart_length, size]
  rfl

/-- The page that is served when an upload is complete. -/
theorem complete_output (board : Board) (server : Server) (event : Event) :
    ∃ after page length, server.complete board event = (after, .send page 0 length) ∧
      (page = .fail ↔ server.uploadFailed = true) := by
  refine ⟨_, _, _, rfl, ?_⟩
  cases server.uploadFailed with
  | true => simp
  | false => simp [verdict_ne_fail]

/-- How the sample upload ends, on any board and after any history. -/
theorem sampleConnection_end {type : UpgradeType} {choice : Option UpgradeType × Bool}
    (chosen : inputChoice board (samplePart type) = some choice) (server : Server) :
    ∃ last, feed board server (opening :: sampleEvents false type) = some last ∧
      ∃ page length report, (observe board last (sampleLast false)).output = .send page 0 length ∧
        (page = .fail ↔ (server.uploadFailed || choice.2 ||
          sizeRefused board (choice.1.getD server.upgradeType) 10233) = true) ∧
        (observe board last (sampleLast false)).completed = some report ∧
          report.upgradeType = choice.1.getD server.upgradeType := by
  have fresh : ((server.reset 0).conns 0).state = .none := by rw [reset_same]
  obtain ⟨fed, underway⟩ := sample_feed chosen false fresh
  obtain ⟨failed, kind⟩ := foldl_advance sampleMiddle (sampleOpened board (server.reset 0) type choice)
  obtain ⟨judged, taken⟩ := sampleOpened_judged board (server.reset 0) type choice
  generalize List.foldl Server.advance (sampleOpened board (server.reset 0) type choice)
    sampleMiddle = last at fed underway failed kind
  have called := sample_last board false underway
  obtain ⟨-, failedLast, -, kindLast, -⟩ := advance_globals last (sampleLast false)
  obtain ⟨after, page, length, finished, isFail⟩ :=
    complete_output board (last.advance (sampleLast false)) (sampleLast false)
  obtain ⟨kindAfter, -, -, served⟩ := complete_result finished
  rw [finished] at called
  refine ⟨last, ?_, page, length, after.report board, ?_, ?_, ?_, ?_⟩
  · rw [feed_cons, feed_opening, Option.bind_some, fed]
  · rw [observe, called]
  · rw [isFail, failedLast, failed, judged]
    rfl
  · rw [observe, called]
    exact if_pos ⟨underway.state, served⟩
  · exact kindAfter.trans (kindLast.trans (kind.trans taken))

theorem failed_shown (same : outcome board first (sampleConnection .firmware) =
    outcome board second (sampleConnection .firmware)) :
    first.uploadFailed = second.uploadFailed := by
  have chosen := samplePart_choice board []
  rw [List.append_nil] at chosen
  obtain ⟨one, fed, page, length, -, output, isFail, -⟩ := sampleConnection_end chosen first
  obtain ⟨two, fed', page', length', -, output', isFail', -⟩ := sampleConnection_end chosen second
  have seen := congrArg Observation.output (observe_of_outcome same fed fed')
  rw [output, output', Output.send.injEq] at seen
  have within : sizeRefused board .firmware 10233 = false := by
    have room := board.room
    simp only [sizeRefused, decide_eq_false_iff_not]
    simp
    omega
  rw [seen.1, isFail'] at isFail
  simp only [Option.getD_some, within, Bool.or_false] at isFail
  exact (Bool.eq_iff_iff.mpr isFail).symm

theorem type_shown {type : UpgradeType}
    (refused : inputChoice board (samplePart type) = some (none, true))
    (same : outcome board first (sampleConnection type) =
      outcome board second (sampleConnection type)) :
    first.upgradeType = second.upgradeType := by
  obtain ⟨one, fed, -, -, report, -, -, completed, kind⟩ := sampleConnection_end refused first
  obtain ⟨two, fed', -, -, report', -, -, completed', kind'⟩ := sampleConnection_end refused second
  have seen := congrArg Observation.completed (observe_of_outcome same fed fed')
  rw [completed, completed', Option.some.injEq] at seen
  rw [seen, kind'] at kind
  exact kind.symm

theorem ready_shown (same : outcome board first (sampleConnection .firmware) =
    outcome board second (sampleConnection .firmware)) :
    first.readyForUpgrade = second.readyForUpgrade := by
  rw [sampleConnection, List.cons_append, outcome, outcome] at same
  exact congrArg Observation.readyForUpgrade (List.cons.inj same).1

/-! ## The upload that is too small -/

def smallPost : Event :=
  segment 0 (text "POST / HTTP/1.1\r\nContent-Length: 1\r\n\r\n") (by decide)

/-- The page that is served for it has arrived. -/
def smallAck (board : Board) : Event :=
  { segment 0 [] (Nat.zero_le _) with
    newdata := false, acked := true, mss := board.pageLength .failName }

def smallConnection (board : Board) : List Event := [opening, smallPost] ++ [smallAck board]

theorem smallConnection_fresh (board : Board) : FreshConnection 0 (smallConnection board) := by
  refine ⟨?_, opening, [smallPost, smallAck board], rfl, rfl, rfl, rfl, rfl, rfl⟩
  intro event member
  simp only [smallConnection, List.cons_append, List.nil_append, List.mem_cons,
    List.not_mem_nil, or_false] at member
  obtain rfl | rfl | rfl := member <;> rfl

theorem smallPost_served (board : Board) (server : Server) :
    feed board server [opening, smallPost] =
      some (((server.reset 0).reset 0).servePage board smallPost .failName).1 := by
  have isData : smallPost.IsData := segment_isData _ (by decide)
  have asked : smallPost.isGet = false ∧ smallPost.isPost = true := by decide
  have declared : contentLength smallPost = some 1 := by rfl
  rw [feed_cons, feed_opening, Option.bind_some, feed_cons, feedOne,
    appcall_request board isData (by exact congrArg HttpdState.state reset_same),
    Server.handleRequest, if_neg (by rw [asked.1]; simp), if_pos asked.2, Server.handlePost, declared]
  rfl

/-- With the last of a page received, an upload that is done grants the upgrade. -/
theorem smallAck_ready {server : Server} (board : Board)
    (state : (server.conns 0).state = .fileRequest)
    (rest : (server.conns 0).upload = board.pageLength .failName) :
    (observe board server (smallAck board)).readyForUpgrade =
      if server.postDone then server.readyForUpgrade || !server.uploadFailed
      else server.readyForUpgrade := by
  have called : httpdAppcall board server (smallAck board) = server.handleAck (smallAck board) := by
    simp [httpdAppcall, smallAck, segment, state]
  have served : (server.conns (smallAck board).conn).state = .fileRequest := state
  have arrived : (server.conns (smallAck board).conn).upload ≤ (smallAck board).mss :=
    Nat.le_of_eq rest
  rw [observe, called, Server.handleAck]
  simp only [if_pos served, if_pos arrived]
  cases server.postDone with
  | true => rfl
  | false => rfl

theorem postDone_shown (waiting : first.readyForUpgrade = false)
    (waiting' : second.readyForUpgrade = false) (accepted : first.uploadFailed = false)
    (accepted' : second.uploadFailed = false)
    (same : outcome board first (smallConnection board) =
      outcome board second (smallConnection board)) : first.postDone = second.postDone := by
  have seen := congrArg Observation.readyForUpgrade
    (observe_of_outcome same (smallPost_served board first) (smallPost_served board second))
  have served (server : Server) :
      ((((server.reset 0).reset 0).servePage board smallPost .failName).1.conns 0).state =
          .fileRequest ∧
        ((((server.reset 0).reset 0).servePage board smallPost .failName).1.conns 0).upload =
          board.pageLength .failName := by
    simp [Server.servePage, smallPost, segment]
  rw [smallAck_ready board (served first).1 (served first).2,
    smallAck_ready board (served second).1 (served second).2] at seen
  change (if first.postDone then first.readyForUpgrade || !first.uploadFailed
    else first.readyForUpgrade) = if second.postDone then
      second.readyForUpgrade || !second.uploadFailed else second.readyForUpgrade at seen
  rw [waiting, waiting', accepted, accepted'] at seen
  simpa using seen

/-! ## The law -/

theorem samplePart_refused (disabled : (board.disableUboot || board.disableArt) = true) :
    ∃ type, inputChoice board (samplePart type) = some (none, true) := by
  have absent (name : String) (type : UpgradeType)
      (missing : strstr (text name) (samplePart type) = none) :
      (strstr (text name) (samplePart type)).isSome = false := by rw [missing]; rfl
  rw [Bool.or_eq_true] at disabled
  obtain uboot | art := disabled
  · refine ⟨.uboot, ?_⟩
    have firmware : strstr (text "name=\"firmware\"") (samplePart .uboot) = none := by rfl
    have found : (strstr (text "name=\"uboot\"") (samplePart .uboot)).isSome = true := by
      rfl
    simp [inputChoice, firmware, found, uboot]
  · refine ⟨.art, ?_⟩
    have firmware : strstr (text "name=\"firmware\"") (samplePart .art) = none := by rfl
    have other : strstr (text "name=\"uboot\"") (samplePart .art) = none := by rfl
    have found : (strstr (text "name=\"art\"") (samplePart .art)).isSome = true := by
      rfl
    simp [inputChoice, firmware, other, found, art]

/-- The server after a history of events on any connections. -/
def history (board : Board) (server : Server) (events : List Event) : Server :=
  events.foldl (fun server event => (httpdAppcall board server event).1) server

def giveUp : Event :=
  { segment 0 [] (Nat.zero_le _) with newdata := false, aborted := true }

/-- An upload of the wrong size that its client gives up after the first segment. -/
def abandonedUpload : List Event := [opening, sampleFirst true .art, giveUp]

theorem abandonedUpload_failed (server : Server) :
    (history sampleBoard server abandonedUpload).uploadFailed = true := by
  have chosen : inputChoice sampleBoard (samplePart .art) = some (some .art, false) := by
    have firmware : strstr (text "name=\"firmware\"") (samplePart .art) = none := by rfl
    have other : strstr (text "name=\"uboot\"") (samplePart .art) = none := by rfl
    have found : (strstr (text "name=\"art\"") (samplePart .art)).isSome = true := by
      rfl
    simp [inputChoice, firmware, other, found, sampleBoard]
  obtain ⟨get, isPost⟩ := sampleFirst_asked true .art
  have fresh : ((server.reset 0).conns 0).state = .none := by rw [reset_same]
  have called : httpdAppcall sampleBoard (server.reset 0) (sampleFirst true .art) =
      (sampleOpened sampleBoard (server.reset 0) .art (some .art, false), .quiet) := by
    rw [appcall_request sampleBoard (sampleFirst_isData true .art) fresh, Server.handleRequest,
      if_neg (by rw [get]; simp), if_pos isPost, handlePost_opens (sampleFirst_opens true .art),
      open_found (sampleFirst_chunk chosen true)]
    rfl
  have tooSmall : sizeRefused sampleBoard .art 10233 = true := by decide
  have opened : httpdAppcall sampleBoard server opening = (server.reset 0, .quiet) := rfl
  have ended (server : Server) : httpdAppcall sampleBoard server giveUp = server.refuse giveUp := rfl
  have judged := (sampleOpened_judged sampleBoard (server.reset 0) .art (some .art, false)).1
  rw [history, abandonedUpload, List.foldl_cons, List.foldl_cons, List.foldl_cons, List.foldl_nil,
    opened, called, ended]
  exact judged.trans (by rw [Option.getD_some, tooSmall, Bool.or_true])

end Rut9xx.Httpd
