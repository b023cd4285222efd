import Rut9xx.Httpd.Server

namespace Rut9xx.Httpd

open Data

section

variable {board : Board} {server after : Server} {event : Event} {conn total : Nat}
  {delimiter data chunk received : List UInt8} {hs : HttpdState}

theorem sub32_of_le {value amount : Nat} (enough : amount ≤ value) (fits : value < 2 ^ 32) :
    sub32 value amount = value - amount := by
  simp only [sub32]
  omega

/-! ## The state of one connection -/

@[simp] theorem setConn_same : (server.setConn conn hs).conns conn = hs := by
  simp [Server.setConn]

theorem reset_same : (server.reset conn).conns conn = ⟨.none, 0, .none, 0, 0⟩ := by
  simp [Server.reset, HttpdState.reset]

/-! ## The first chunk -/

structure FirstChunk where
  choice : Option UpgradeType × Bool
  /-- From the delimiter up to the data. -/
  header : Nat
  data : List UInt8

/-- What `httpd_findandstore_firstchunk` looks for in a segment. -/
def firstChunk (board : Board) (delimiter data : List UInt8) : Option FirstChunk := do
  let start ← strstr delimiter (cString data)
  let part := (cString data).drop start
  let choice ← inputChoice board part
  let blank ← strstr eol2 part
  some ⟨choice, blank + 4, data.drop (start + blank + 4)⟩

/-- The server with the first chunk stored. -/
def Server.begin (board : Board) (server : Server) (conn : Nat) (delimiter : List UInt8)
    (first : FirstChunk) : Server :=
  let uploadTotal := sub32 (server.conns conn).uploadTotal (first.header + delimiter.length + 6)
  let server := (server.chooseType first.choice).setConn conn
    { server.conns conn with uploadTotal := uploadTotal, upload := first.data.length }
  ({ server with
    uploadFailed := server.uploadFailed || sizeRefused board server.upgradeType uploadTotal }
      : Server).storeData first.data

theorem findAndStore_found {first : FirstChunk}
    (string : server.boundaryString event = some delimiter)
    (found : firstChunk board delimiter event.data = some first) :
    server.findAndStoreFirstChunk board event =
      (true, server.begin board event.conn delimiter first) := by
  simp only [firstChunk, Option.bind_eq_bind, Option.bind_eq_some_iff] at found
  obtain ⟨start, starts, choice, chosen, blank, blanks, same⟩ := found
  cases same
  simp only [Server.findAndStoreFirstChunk, string, starts, chosen, blanks]
  rfl

/-- The name of the input, in a segment where the rest may be missing. -/
def nameSeen (board : Board) (delimiter data : List UInt8) : Option (Option UpgradeType × Bool) :=
  (strstr delimiter (cString data)).bind fun start => inputChoice board ((cString data).drop start)

/-- Without a first chunk only the type, and a refusal of it, may be taken over. -/
theorem findAndStore_missing (board : Board) (string : server.boundaryString event = some delimiter)
    (missing : firstChunk board delimiter event.data = none) :
    server.findAndStoreFirstChunk board event =
      (false, (nameSeen board delimiter event.data).elim server server.chooseType) := by
  simp only [firstChunk, Option.bind_eq_bind] at missing
  cases starts : strstr delimiter (cString event.data) with
  | none => simp only [Server.findAndStoreFirstChunk, nameSeen, string, starts, Option.bind_none,
      Option.elim_none]
  | some start =>
      rw [starts, Option.bind_some] at missing
      cases chosen : inputChoice board ((cString event.data).drop start) with
      | none =>
          simp only [Server.findAndStoreFirstChunk, nameSeen, string, starts, chosen,
            Option.bind_some, Option.elim_none]
      | some choice =>
          rw [chosen, Option.bind_some] at missing
          cases blanks : strstr eol2 ((cString event.data).drop start) with
          | none =>
              simp only [Server.findAndStoreFirstChunk, nameSeen, string, starts, chosen, blanks,
                Option.bind_some, Option.elim_some]
          | some blank =>
              rw [blanks, Option.bind_some] at missing
              cases missing

theorem findAndStore_absent (board : Board) (string : server.boundaryString event = some delimiter)
    (absent : strstr delimiter (cString event.data) = none) :
    server.findAndStoreFirstChunk board event = (false, server) := by
  simp only [Server.findAndStoreFirstChunk, string, absent]

theorem begin_conn {first : FirstChunk} :
    (server.begin board conn delimiter first).conns conn =
      { server.conns conn with
        uploadTotal := sub32 (server.conns conn).uploadTotal (first.header + delimiter.length + 6)
        upload := first.data.length } := by
  simp [Server.begin, Server.storeData, Server.setConn]

/-! ## A request -/

/-- The server that is about to look for the first chunk. -/
def Server.accept (board : Board) (server : Server) (conn total : Nat) (delimiter : List UInt8) :
    Server :=
  ({ server.setConn conn
      { server.conns conn with state := .uploadRequest, uploadTotal := total } with
    boundary := .live delimiter } : Server).clearRam board

@[simp] theorem accept_boundaryString :
    (server.accept board conn total delimiter).boundaryString event = some delimiter := rfl

@[simp] theorem accept_conn : (server.accept board conn total delimiter).conns conn =
    { server.conns conn with state := .uploadRequest, uploadTotal := total } := by
  simp [Server.accept, Server.clearRam, Server.setConn]

/-- The server once it has looked for the first chunk of a request. -/
def Server.open (board : Board) (server : Server) (event : Event) (total : Nat)
    (delimiter : List UInt8) : Server :=
  let (found, server) :=
    (server.accept board event.conn total delimiter).findAndStoreFirstChunk board event
  { server with dataStartFound := found }

/-- A POST that is taken in. -/
structure Opens (event : Event) (total : Nat) (delimiter : List UInt8) : Prop where
  declared : contentLength event = some total
  large : 10240 ≤ total
  parameter : ∃ value, boundaryParameter event = some value ∧ delimiter = text "--" ++ value
  memory : event.memory = true

theorem handlePost_opens (opens : Opens event total delimiter) :
    server.handlePost board event = (server.open board event total delimiter, .quiet) := by
  obtain ⟨value, parameter, rfl⟩ := opens.parameter
  have large := opens.large
  simp only [Server.handlePost, opens.declared, parameter, opens.memory, Bool.true_eq_false,
    if_false, if_neg (show ¬ total < 10240 by omega)]
  rfl

/-- A POST that is not taken in is refused, or answered with the page for small files. -/
theorem handlePost_cases (board : Board) (server : Server) (event : Event) :
    (∃ total delimiter, Opens event total delimiter) ∨
      (∃ boundary, server.handlePost board event =
        ({ server with boundary := boundary } : Server).refuse event) ∨
      server.handlePost board event = (server.reset event.conn).servePage board event .failName := by
  unfold Server.handlePost
  cases declared : contentLength event with
  | none => exact Or.inr (Or.inl ⟨server.boundary, rfl⟩)
  | some total =>
      by_cases small : total < 10240
      · exact Or.inr (Or.inr (if_pos small))
      · simp only [if_neg small]
        cases parameter : boundaryParameter event with
        | none => exact Or.inr (Or.inl ⟨server.boundary, rfl⟩)
        | some value =>
            cases memory : event.memory with
            | false => exact Or.inr (Or.inl ⟨.null, if_pos rfl⟩)
            | true =>
                exact Or.inl ⟨total, _, declared, Nat.le_of_not_lt small, ⟨value, parameter, rfl⟩,
                  memory⟩

/-- What a request that opens no upload comes to. -/
theorem handleRequest_cases (board : Board) (server : Server) (event : Event) :
    (∃ total delimiter, event.isGet = false ∧ event.isPost = true ∧
        Opens event total delimiter) ∨
      (∃ boundary, server.handleRequest board event =
        ({ server with boundary := boundary } : Server).refuse event) ∨
      (∃ page, server.handleRequest board event = server.servePage board event page) ∨
      server.handleRequest board event =
        (server.reset event.conn).servePage board event .failName ∨
      server.handleRequest board event =
        (server.setConn event.conn { server.conns event.conn with state := .serialRequest },
          .sendSerial) := by
  unfold Server.handleRequest
  cases get : event.isGet with
  | true =>
      simp only [if_true]
      unfold Server.handleGet
      cases event.nameLength with
      | none => exact Or.inr (Or.inl ⟨server.boundary, rfl⟩)
      | some length =>
          simp only
          split
          · exact Or.inr (Or.inr (Or.inl ⟨_, rfl⟩))
          · exact Or.inr (Or.inr (Or.inl ⟨_, rfl⟩))
  | false =>
      simp only [Bool.false_eq_true, if_false]
      cases post : event.isPost with
      | true =>
          simp only [if_true]
          obtain ⟨total, delimiter, opens⟩ | refused | small := handlePost_cases board server event
          · exact Or.inl ⟨total, delimiter, trivial, trivial, opens⟩
          · exact Or.inr (Or.inl refused)
          · exact Or.inr (Or.inr (Or.inr (Or.inl small)))
      | false =>
          simp only [Bool.false_eq_true, if_false]
          cases event.isSerial board with
          | true => exact Or.inr (Or.inr (Or.inr (Or.inr rfl)))
          | false => exact Or.inr (Or.inl ⟨server.boundary, rfl⟩)

/-! ## An upload under way -/

/-- The connection is in its upload, with the first chunk stored. -/
structure Underway (server : Server) (conn upload total : Nat) : Prop where
  state : (server.conns conn).state = .uploadRequest
  started : server.dataStartFound = true
  upload : (server.conns conn).upload = upload
  uploadTotal : (server.conns conn).uploadTotal = total

/-- It has been accepted, with `received` of the file in the memory. -/
structure Receiving (board : Board) (server : Server) (received : List UInt8) (total : Nat) :
    Prop where
  pointer : server.dataPointer = board.loadAddr + received.length
  stored : Holds server.ram board.loadAddr received
  accepted : server.uploadFailed = false
  within : sizeRefused board server.upgradeType total = false

theorem total_le {type : UpgradeType} (within : sizeRefused board type total = false) :
    total ≤ board.flashSize - board.limitedArea := by
  simp only [sizeRefused, decide_eq_false_iff_not] at within
  omega

theorem total_lt {type : UpgradeType} (within : sizeRefused board type total = false) :
    total < 2 ^ 31 := by
  have bound := total_le within
  have size := board.flashSize_lt
  omega

theorem Underway.begin (board : Board) (delimiter : List UInt8) (first : FirstChunk) {found : Bool}
    (state : (server.conns conn).state = .uploadRequest) (isFound : found = true) :
    Underway { server.begin board conn delimiter first with dataStartFound := found } conn
      first.data.length
      (sub32 (server.conns conn).uploadTotal (first.header + delimiter.length + 6)) := by
  constructor
  · rw [begin_conn]
    exact state
  · exact isFound
  · rw [begin_conn]
  · rw [begin_conn]

/-- An upload refused from the start leaves its first chunk in the memory. -/
theorem begin_refused (board : Board) (conn : Nat) (delimiter : List UInt8) (first : FirstChunk)
    (refused : server.uploadFailed = true) :
    (server.begin board conn delimiter first).uploadFailed = true ∧
      (server.begin board conn delimiter first).ram =
        store server.ram server.dataPointer first.data := by
  simp [Server.begin, Server.storeData, Server.setConn, Server.chooseType, refused]

theorem Receiving.begin {first : FirstChunk} {type : UpgradeType} {found : Bool}
    (chosen : first.choice = (some type, false)) (accepted : server.uploadFailed = false)
    (pointer : server.dataPointer = board.loadAddr)
    (size : sub32 (server.conns conn).uploadTotal (first.header + delimiter.length + 6) = total)
    (within : sizeRefused board type total = false) :
    Receiving board { server.begin board conn delimiter first with dataStartFound := found }
      first.data total := by
  constructor
  · simp [Server.begin, Server.storeData, Server.setConn, Server.chooseType, pointer]
  · simp only [Server.begin, Server.storeData, Server.setConn, Server.chooseType, pointer]
    exact holds_store
  · simp [Server.begin, Server.storeData, Server.setConn, Server.chooseType, accepted, chosen, size,
      within]
  · simp [Server.begin, Server.storeData, Server.setConn, Server.chooseType, chosen, within]

/-- A segment of data and nothing else. -/
structure Event.IsData (event : Event) : Prop where
  open' : event.closed = false
  alive : event.aborted = false
  timely : event.timedout = false
  called : event.poll = false
  established : event.connected = false
  newdata : event.newdata = true
  nothingSent : event.acked = false
  noRetransmission : event.rexmit = false
  nonempty : event.data ≠ []

structure Event.IsPoll (event : Event) : Prop where
  open' : event.closed = false
  alive : event.aborted = false
  timely : event.timedout = false
  called : event.poll = true

theorem appcall_upload (board : Board) (isData : event.IsData)
    (state : (server.conns event.conn).state = .uploadRequest) :
    httpdAppcall board server event = server.handleUpload board event := by
  simp [httpdAppcall, isData.open', isData.alive, isData.timely, isData.called,
    isData.established, isData.newdata, isData.nothingSent, isData.noRetransmission, state]

theorem appcall_request (board : Board) (isData : event.IsData)
    (state : (server.conns event.conn).state = .none) :
    httpdAppcall board server event = server.handleRequest board event := by
  simp [httpdAppcall, isData.open', isData.alive, isData.timely, isData.called,
    isData.established, isData.newdata, state]

theorem appcall_poll (board : Board) (isPoll : event.IsPoll) :
    httpdAppcall board server event =
      let hs := server.conns event.conn
      let server := server.setConn event.conn { hs with count := (hs.count + 1) % 2 ^ 16 }
      if hs.count ≥ 100 then server.refuse event else (server, .quiet) := by
  simp [httpdAppcall, isPoll.open', isPoll.alive, isPoll.timely, isPoll.called]

/-- The server once a segment of the file is taken over. -/
def Server.advance (server : Server) (event : Event) : Server :=
  let hs := server.conns event.conn
  let server := server.setConn event.conn
    { hs with upload := (hs.upload + event.data.length) % 2 ^ 32 }
  if server.uploadFailed then server else server.storeData event.data

theorem handleUpload_started (board : Board) (started : server.dataStartFound = true) :
    server.handleUpload board event =
      if ((server.conns event.conn).upload + event.data.length) % 2 ^ 32 ≥
          (server.conns event.conn).uploadTotal then
        (server.advance event).complete board event
      else (server.advance event, .quiet) := by
  simp only [Server.handleUpload, started, Bool.true_eq_false, if_false]
  rfl

theorem Underway.advance {upload : Nat} (underway : Underway server event.conn upload total) :
    Underway (server.advance event) event.conn ((upload + event.data.length) % 2 ^ 32) total := by
  unfold Server.advance
  simp only [underway.upload]
  split
  · exact ⟨by simpa using underway.state, underway.started, by simp,
      by simpa using underway.uploadTotal⟩
  · exact ⟨by simpa [Server.storeData] using underway.state, underway.started,
      by simp [Server.storeData], by simpa [Server.storeData] using underway.uploadTotal⟩

theorem advance_refused (event : Event) (refused : server.uploadFailed = true) :
    (server.advance event).uploadFailed = true ∧ (server.advance event).ram = server.ram ∧
      (server.advance event).dataPointer = server.dataPointer := by
  simp [Server.advance, Server.setConn, refused]

theorem advance_type : (server.advance event).upgradeType = server.upgradeType := by
  unfold Server.advance
  simp only
  split <;> rfl

theorem Receiving.advance (receiving : Receiving board server received total) :
    Receiving board (server.advance event) (received ++ event.data) total := by
  have accepted := receiving.accepted
  unfold Server.advance
  simp only
  rw [if_neg (by simpa [Server.setConn] using accepted)]
  constructor
  · simp only [Server.storeData, Server.setConn, receiving.pointer, List.length_append]
    omega
  · simp only [Server.storeData, Server.setConn, receiving.pointer]
    apply holds_append.mpr
    exact ⟨receiving.stored.store_apart (Or.inl (Nat.le_refl _)), holds_store⟩
  · exact accepted
  · exact receiving.within

/-! ## The end of an upload -/

/-- What is told of an upload when it is complete. -/
theorem complete_result {output : Output} (result : server.complete board event = (after, output)) :
    after.upgradeType = server.upgradeType ∧ after.ram = server.ram ∧
      after.netBootFileXferSize =
        sub32 (server.conns event.conn).uploadTotal (trailer server.upgradeType) ∧
      (after.conns event.conn).state = .fileRequest := by
  simp only [Server.complete, Server.servePage, Prod.mk.injEq] at result
  obtain ⟨rfl, -⟩ := result
  refine ⟨rfl, rfl, rfl, ?_⟩
  simp

/-- An accepted upload that is complete has the whole file in the memory. -/
theorem Receiving.complete {output : Output} {file : List UInt8}
    (receiving : Receiving board server received file.length) (whole : file <+: received)
    (uploadTotal : (server.conns event.conn).uploadTotal = file.length)
    (trailed : trailer server.upgradeType ≤ file.length)
    (result : server.complete board event = (after, output)) :
    Holds after.ram board.loadAddr file ∧
      after.netBootFileXferSize + trailer after.upgradeType = file.length := by
  obtain ⟨type, ram, size, -⟩ := complete_result result
  obtain ⟨more, rfl⟩ := whole
  have small := total_lt receiving.within
  rw [type, ram, size, uploadTotal]
  refine ⟨(holds_append.mp receiving.stored).1, ?_⟩
  rw [sub32_of_le trailed (by omega), Nat.sub_add_cancel trailed]

end

section

variable {before more data : List UInt8} {place : Nat}

/-- A POST with one file in a multipart body, its boundary parameter unquoted and the last of
its line. -/
structure MultipartPost where
  /-- The request line and the header fields, with the blank line. -/
  head : List UInt8
  /-- The value of the boundary parameter. -/
  value : List UInt8
  /-- The delimiter and the header of the part, with its blank line. -/
  part : List UInt8
  file : List UInt8
  headText : 0 ∉ head
  partText : 0 ∉ part
  oneLine : 0x0d ∉ value
  parameter : ∃ place, strstr (text "boundary=") head = some place ∧
    value ++ eol <+: head.drop (place + 9)
  delimiterFirst : strstr (text "--" ++ value) (head ++ part) = some head.length
  blankLast : strstr eol2 part = some (part.length - 4)

namespace MultipartPost

variable (post : MultipartPost)

def delimiter : List UInt8 := text "--" ++ post.value

def closing : List UInt8 := eol ++ post.delimiter ++ text "--" ++ eol

def request : List UInt8 := post.head ++ post.part ++ post.file ++ post.closing

/-- What the header field is to state. -/
def bodyLength : Nat := (post.part ++ post.file ++ post.closing).length

theorem text_dashes : text "--" = [0x2d, 0x2d] := by decide

theorem delimiter_length : post.delimiter.length = post.value.length + 2 := by
  simp only [delimiter, text_dashes, List.length_append, List.length_cons, List.length_nil]
  omega

theorem closing_length : post.closing.length = post.delimiter.length + 6 := by
  simp only [closing, eol, text_dashes, List.length_append, List.length_cons, List.length_nil]
  omega

theorem bodyLength_eq :
    post.bodyLength = post.file.length + (post.part.length + post.delimiter.length + 6) := by
  simp only [bodyLength, List.length_append, closing_length]
  omega

theorem delimiter_le : post.delimiter.length ≤ post.part.length := by
  have fits : post.head.length + post.delimiter.length ≤ (post.head ++ post.part).length :=
    strstr_within post.delimiterFirst
  rw [List.length_append] at fits
  exact Nat.le_of_add_le_add_left fits

theorem four_le : 4 ≤ post.part.length := by
  have fits := strstr_within post.blankLast
  simp only [eol2, List.length_cons, List.length_nil] at fits
  omega

end MultipartPost

/-! ## C strings -/

theorem cString_append (more : List UInt8) (nonzero : 0 ∉ before) :
    cString (before ++ more) = before ++ cString more := by
  apply List.takeWhile_append_of_pos
  intro byte member
  have other : byte ≠ 0 := fun zero => nonzero (zero ▸ member)
  simpa using other

theorem cString_front : cString data <+: data := List.takeWhile_prefix _

/-! ## What the server finds in a segment -/

namespace MultipartPost

variable (post : MultipartPost)

theorem delimiter_found (more : List UInt8) (suffix : before <:+ post.head) :
    strstr post.delimiter (before ++ post.part ++ more) = some before.length := by
  obtain ⟨earlier, split⟩ := suffix
  have length : post.head.length = earlier.length + before.length := by
    rw [← split, List.length_append]
  have inside : earlier.length ≤ post.head.length := by omega
  have behind := strstr_drop post.delimiterFirst inside
  rw [← split, List.append_assoc, List.drop_left, List.length_append,
    Nat.add_sub_cancel_left] at behind
  exact strstr_extend more behind

/-- The segment with the header of the part begins the upload. -/
theorem firstChunk_part (board : Board) (more : List UInt8) (suffix : before <:+ post.head) :
    firstChunk board post.delimiter (before ++ post.part ++ more) =
      (inputChoice board (post.part ++ cString more)).map fun choice =>
        ⟨choice, post.part.length, more⟩ := by
  have four := post.four_le
  have nonzero : 0 ∉ before ++ post.part := by
    rw [List.mem_append]
    rintro (inside | inside)
    · exact post.headText (suffix.subset inside)
    · exact post.partText inside
  have string := cString_append more nonzero
  have found := post.delimiter_found (cString more) suffix
  have blank := strstr_extend (cString more) post.blankLast
  have rest : (before ++ post.part ++ more).drop
      (before.length + (post.part.length - 4) + 4) = more := by
    rw [Nat.add_assoc, Nat.sub_add_cancel four, ← List.length_append, List.drop_left]
  have part : (before ++ post.part ++ cString more).drop before.length =
      post.part ++ cString more := by
    rw [List.append_assoc, List.drop_left]
  simp only [firstChunk, Option.bind_eq_bind, string, found, Option.bind_some, part, blank, rest,
    Nat.sub_add_cancel four]
  cases inputChoice board (post.part ++ cString more) with
  | none => rfl
  | some choice => rfl

/-- A segment of the head alone does not. -/
theorem delimiter_missing (suffix : before <:+ post.head) (front : data <+: before) :
    strstr post.delimiter (cString data) = none := by
  cases found : strstr post.delimiter (cString data) with
  | none => rfl
  | some place =>
      have whole := post.delimiter_found [] suffix
      have same := strstr_prefix (cString_front.trans (front.trans
        ((List.prefix_append before post.part).trans (List.prefix_append _ [])))) found
      rw [whole] at same
      cases same
      have fits := strstr_within found
      have short := (cString_front.trans front).length_le
      have dashes := post.delimiter_length
      omega

theorem eol_found : strstr eol (post.value ++ eol ++ more) = some post.value.length := by
  apply strstr_extend more
  apply strstr_append List.prefix_rfl
  intro earlier inside occurs
  rw [List.drop_eq_getElem_cons inside, List.cons_append] at occurs
  have byte : 0x0d = post.value[earlier] := (List.cons_prefix_cons.mp occurs).1
  exact post.oneLine (byte ▸ List.getElem_mem inside)

/-- What is read from the front of the request is its boundary parameter. -/
theorem boundaryParameter_eq {event : Event} {found : List UInt8}
    (front : event.data <+: post.head ++ more) (read : boundaryParameter event = some found) :
    found = post.value := by
  obtain ⟨place, first, line⟩ := post.parameter
  have string := cString_front.trans front
  unfold boundaryParameter at read
  split at read
  · cases read
  · rename_i other foundOther
    have same := strstr_prefix string foundOther
    rw [strstr_extend more first] at same
    cases same
    obtain ⟨width, foundWidth, rfl⟩ := Option.map_eq_some_iff.mp read
    have inFront : (cString event.data).drop (place + 9) <+: (post.head ++ more).drop (place + 9) :=
      string.drop _
    have fits := strstr_within first
    have nine : (text "boundary=").length = 9 := by decide
    obtain ⟨rest, split⟩ := line
    rw [List.drop_append_of_le_length (by omega), ← split] at inFront
    have widthSame := strstr_prefix inFront foundWidth
    rw [List.append_assoc (post.value ++ eol), post.eol_found] at widthSame
    cases widthSame
    have taken := strstr_within foundWidth
    have start : post.value <+: post.value ++ eol ++ rest ++ more := by
      simp only [List.append_assoc]
      exact List.prefix_append _ _
    have shorter : post.value <+: (cString event.data).drop (place + 9) :=
      List.prefix_of_prefix_length_le start inFront (by omega)
    exact (List.prefix_iff_eq_take.mp shorter).symm

end MultipartPost

end

end Rut9xx.Httpd
