import Rut9xx.Httpd.Progress

namespace Rut9xx.Httpd

open Data

variable {board : Board} {start before after : Server} {event last : Event} {events : List Event}
  {post : MultipartPost} {conn : Nat}

/-- The file is in the memory, and its size is the recorded one. -/
def Stored (board : Board) (server : Server) (file : List UInt8) : Prop :=
  Holds server.ram board.loadAddr file ∧
    server.netBootFileXferSize + trailer server.upgradeType = file.length

/-- With the event `last` the server considers the upload of the POST complete. -/
structure Completes (board : Board) (post : MultipartPost) (start : Server) (conn : Nat)
    (events : List Event) (last : Event) (after : Server) : Prop where
  fresh : (start.conns conn).state = .none
  arriving : Arriving conn (events ++ [last])
  unsplit : post.Unsplit (events ++ [last])
  arrived : payload (events ++ [last]) <+: post.request
  taken : ∃ before, feed board start events = some before ∧
    (before.conns conn).state = .uploadRequest ∧ (httpdAppcall board before last).1 = after
  served : (after.conns conn).state = .fileRequest

theorem MultipartPost.FirstData.earliest {chunk : List UInt8}
    {earlier others : List Event} {segment another : Event} {later rest : List Event}
    (split : segments events = earlier ++ segment :: later)
    (whole : earlier.flatMap Event.data ++ segment.data = post.head ++ post.part ++ chunk)
    (splitOther : segments events = others ++ another :: rest)
    (front : (others.flatMap Event.data).length ≤ post.head.length) :
    others.length ≤ earlier.length := by
  by_contra beyond
  have inside : earlier ++ [segment] <+: others := by
    have front : earlier ++ [segment] <+: segments events := by
      rw [split]
      simp
    apply List.prefix_of_prefix_length_le front
    · rw [splitOther]
      exact List.prefix_append _ _
    · rw [List.length_append, List.length_singleton]
      omega
  obtain ⟨more, rfl⟩ := inside
  rw [List.flatMap_append, List.flatMap_append, List.flatMap_cons, List.flatMap_nil,
    List.append_nil, whole] at front
  have four := post.four_le
  simp only [List.length_append] at front
  omega

theorem MultipartPost.FirstData.unique {chunk other : List UInt8}
    (first : post.FirstData events chunk) (second : post.FirstData events other) :
    chunk = other := by
  obtain ⟨earlier, segment, later, split, front, whole⟩ := first
  obtain ⟨others, another, rest, splitOther, frontOther, wholeOther⟩ := second
  have same : earlier.length = others.length :=
    Nat.le_antisymm (earliest splitOther wholeOther split front)
      (earliest split whole splitOther frontOther)
  obtain ⟨rfl, tails⟩ := List.append_inj (split.symm.trans splitOther) same
  obtain ⟨rfl, -⟩ := List.cons_eq_cons.mp tails
  exact List.append_cancel_left (whole.symm.trans wholeOther)

theorem MultipartPost.FirstData.part_le {chunk : List UInt8}
    (first : post.FirstData events chunk) :
    post.part.length + chunk.length ≤ uipTcpMss := by
  obtain ⟨earlier, segment, later, split, front, whole⟩ := first
  have lengths := congrArg List.length whole
  have bound := segment.data_le
  simp only [List.length_append] at lengths
  omega

theorem atoi_lt (bytes : List UInt8) : atoi bytes < 2 ^ 32 := by
  have bound : ∀ (digits : List UInt8) (value : Nat), value < 2 ^ 32 →
      digits.foldl (fun value byte => (value * 10 + (byte.toNat - 48)) % 2 ^ 32) value < 2 ^ 32 := by
    intro digits
    induction digits with
    | nil => exact fun value small => small
    | cons digit rest ih => exact fun value _ => ih _ (Nat.mod_lt _ (by simp))
  exact bound _ 0 (by simp)

theorem contentLength_lt {total : Nat} (declared : contentLength event = some total) :
    total < 2 ^ 32 := by
  unfold contentLength at declared
  split at declared
  · cases declared
  · simp only at declared
    split at declared
    · cases declared
      exact atoi_lt _
    · cases declared

/-- Only the segment that brings the number of bytes up to the total ends an upload. -/
theorem completed_underway {upload total : Nat} (underway : Underway before last.conn upload total)
    (isData : last.IsData) (result : (httpdAppcall board before last).1 = after)
    (served : (after.conns last.conn).state = .fileRequest) :
    total ≤ (upload + last.data.length) % 2 ^ 32 ∧
      ((before.advance last).complete board last).1 = after := by
  rw [appcall_upload board isData underway.state, handleUpload_started board underway.started,
    underway.upload, underway.uploadTotal] at result
  split at result
  · rename_i reached
    exact ⟨reached, result⟩
  · subst result
    have state := underway.advance.state
    rw [served] at state
    cases state

/-- A call between two segments never does. -/
theorem completed_not_poll (isPoll : last.IsPoll)
    (state : (before.conns last.conn).state = .uploadRequest)
    (result : (httpdAppcall board before last).1 = after) :
    (after.conns last.conn).state ≠ .fileRequest := by
  rw [appcall_poll board isPoll] at result
  simp only at result
  split at result
  · subst result
    rw [Server.refuse, reset_same]
    exact fun served => by cases served
  · subst result
    simp [state]

/-- Nor does one that looks for the start of the data. -/
theorem completed_not_waiting (isData : last.IsData) (missing : before.dataStartFound = false)
    (boundary : before.boundaryString last = some post.delimiter)
    (state : (before.conns last.conn).state = .uploadRequest)
    (result : (httpdAppcall board before last).1 = after) :
    (after.conns last.conn).state ≠ .fileRequest := by
  rw [appcall_upload board isData state] at result
  simp only [Server.handleUpload, missing, if_true] at result
  cases first : firstChunk board post.delimiter last.data with
  | some first =>
      rw [findAndStore_found boundary first] at result
      subst result
      simp [begin_conn, state]
  | none =>
      rw [findAndStore_missing board boundary first] at result
      subst result
      simp [Server.refuse, reset_same]

/-- What is known of the upload when the server considers it complete. -/
structure Ended (board : Board) (post : MultipartPost) (start : Server) (events : List Event)
    (after : Server) (total : Nat) : Prop where
  declared : (segments events).head?.bind contentLength = some total
  large : 10240 ≤ total
  size : after.netBootFileXferSize =
    sub32 (sub32 total (post.part.length + post.delimiter.length + 6)) (trailer after.upgradeType)
  intact : start.uploadFailed = false → total = post.bodyLength → Stored board after post.file
  begun : ∃ chunk, post.FirstData events chunk ∧ chunk <+: post.file ++ post.closing ∧
    (start.uploadFailed = true → after.ram = store (start.clearRam board).ram board.loadAddr chunk)

theorem trailer_le (type : UpgradeType) : trailer type ≤ 11 := by
  cases type <;> simp [trailer]

theorem Completes.ended (fits : post.Fits board)
    (completes : Completes board post start conn events last after) :
    ∃ total, Ended board post start events after total := by
  obtain ⟨fresh, arriving, unsplit, arrived, ⟨before, fed, uploading, result⟩, served⟩ := completes
  have progress := progress_of_feed fresh fits
    (fun event member => arriving event (List.mem_append_left _ member)) unsplit.front
    (payload_front.trans arrived) fed
  obtain ⟨rfl, isData | isPoll⟩ := arriving last (by simp)
  · cases progress with
    | fresh none state same ram =>
        rw [state] at uploading
        cases uploading
    | aside state =>
        rw [uploading] at state
        obtain wrong | wrong := state <;> cases wrong
    | waiting first total only front opens state uploadTotal missing boundary pointer same ram =>
        exact absurd served (completed_not_waiting isData missing
          (by rw [Server.boundaryString, boundary]) state result)
    | underway first total received opening opens bytes upload intact chunk begun ahead stale =>
        obtain ⟨count, underway⟩ := upload
        obtain ⟨-, completed⟩ := completed_underway underway isData result served
        obtain ⟨type, ram, size, -⟩ := complete_result (Prod.ext completed rfl)
        have behind : received ++ last.data <+: post.file ++ post.closing := by
          rw [payload_data isData.called, bytes, MultipartPost.request] at arrived
          simpa only [List.append_assoc, List.prefix_append_right_inj] using arrived
        refine ⟨total, by rw [opening, Option.bind_some, opens.declared], opens.large, ?_, ?_, chunk, begun,
          ahead.trans ((List.prefix_append _ _).trans behind), ?_⟩
        · rw [size, type, underway.advance.uploadTotal]
        · intro accepted declared
          obtain ⟨same, room, receiving⟩ := intact accepted declared
          obtain ⟨reached, -⟩ := completed_underway same isData result served
          have small := total_lt receiving.within
          have segment := last.data_le
          simp only [uipTcpMss] at segment
          rw [Nat.mod_eq_of_lt (by omega), ← List.length_append] at reached
          have whole : post.file <+: received ++ last.data :=
            List.prefix_of_prefix_length_le (List.prefix_append _ _) behind reached
          have long := opens.large
          have bodyLength := post.bodyLength_eq
          have part := begun.part_le
          have delimiter := post.delimiter_le
          have most := trailer_le (before.advance last).upgradeType
          simp only [uipTcpMss] at part
          exact receiving.advance.complete whole same.advance.uploadTotal (by omega)
            (Prod.ext completed rfl)
        · intro refused
          obtain ⟨failed, held⟩ := stale refused
          exact ram.trans ((advance_refused last failed).2.1.trans held)
  · exact absurd served (completed_not_poll isPoll uploading result)

/-- The recorded size is right only if the header field states the length of the body. -/
theorem Ended.total_eq {total : Nat} (ended : Ended board post start events after total)
    (fits : post.Fits board) (stored : Stored board after post.file) :
    total = post.bodyLength := by
  obtain ⟨-, size⟩ := stored
  obtain ⟨type, -, within⟩ := fits [] List.nil_prefix
  obtain ⟨chunk, begun, -⟩ := ended.begun
  obtain ⟨first, -, declared⟩ := Option.bind_eq_some_iff.mp ended.declared
  have small := total_lt within
  have bound := contentLength_lt declared
  have part := begun.part_le
  have delimiter := post.delimiter_le
  have most := trailer_le after.upgradeType
  rw [ended.size] at size
  rw [post.bodyLength_eq]
  simp only [sub32, uipTcpMss] at size part
  omega

/-- The memory that an upload refused from the start leaves holds the file only by chance. -/
theorem holds_refused {chunk file closing : List UInt8} {ram : Memory UInt8} {address : Nat}
    (ahead : chunk <+: file ++ closing) (short : chunk.length ≤ file.length) :
    Holds (store ram address chunk) address file ↔
      Holds ram (address + chunk.length) (file.drop chunk.length) := by
  obtain ⟨rest, rfl⟩ := List.prefix_of_prefix_length_le ahead (List.prefix_append _ _) short
  rw [List.drop_left, holds_append, and_iff_right holds_store, Holds, Holds,
    load_store_apart (Or.inr (Nat.le_refl _))]

/-- The upload leaves the file in the memory exactly if the server reads the length of the body
from the header field, and no failure of an earlier upload is left behind. In that case the
memory could hold the rest of the file only by chance. -/
theorem upload_reassembles_iff (fits : post.Fits board)
    (completes : Completes board post start conn events last after) :
    Stored board after post.file ↔
      (segments events).head?.bind contentLength = some post.bodyLength ∧
        (start.uploadFailed = false ∨ ∃ chunk, post.FirstData events chunk ∧
          Holds (start.clearRam board).ram (board.loadAddr + chunk.length)
            (post.file.drop chunk.length)) := by
  obtain ⟨total, ended⟩ := completes.ended fits
  obtain ⟨chunk, begun, ahead, held⟩ := ended.begun
  have short (declared : total = post.bodyLength) :
      total < 2 ^ 32 ∧ chunk.length + 11 ≤ post.file.length := by
    obtain ⟨first, -, read⟩ := Option.bind_eq_some_iff.mp ended.declared
    have long := ended.large
    have bodyLength := post.bodyLength_eq
    have part := begun.part_le
    have delimiter := post.delimiter_le
    simp only [uipTcpMss] at part
    exact ⟨contentLength_lt read, by omega⟩
  constructor
  · intro stored
    have declared := ended.total_eq fits stored
    refine ⟨declared ▸ ended.declared, ?_⟩
    cases failed : start.uploadFailed with
    | false => exact Or.inl rfl
    | true =>
        have memory := stored.1
        rw [held failed, holds_refused ahead (by have := short declared; omega)] at memory
        exact Or.inr ⟨chunk, begun, memory⟩
  · intro condition
    obtain ⟨declared, allowed⟩ := condition
    have same : total = post.bodyLength := Option.some.inj (ended.declared.symm.trans declared)
    cases failed : start.uploadFailed with
    | false => exact ended.intact failed same
    | true =>
        obtain accepted | ⟨other, otherBegun, memory⟩ := allowed
        · rw [failed] at accepted
          cases accepted
        · obtain rfl := otherBegun.unique begun
          obtain ⟨bound, enough⟩ := short same
          have most := trailer_le after.upgradeType
          refine ⟨?_, ?_⟩
          · rw [held failed, holds_refused ahead (by omega)]
            exact memory
          · have split := post.bodyLength_eq
            have size : sub32 total (post.part.length + post.delimiter.length + 6) =
                post.file.length := by
              rw [sub32_of_le (by omega) bound]
              omega
            rw [ended.size, size, sub32_of_le (by omega) (by omega)]
            omega

/-! ## Two uploads -/

def sampleBoard : Board where
  loadAddr := 0x80800000
  maxUbootSize := 0x20000
  flashSize := 0x1000000
  limitedArea := 0x50000
  artSize := 0x10000
  disableUboot := false
  disableArt := false
  artRefused := false
  deviceModel := text "RUT9XX"
  crc32 := fun _ => 0
  validateManifest := fun _ => true
  fsOpen := fun _ => none
  pageLength := fun _ => 100
  afterMagic := []
  loadAddr_fits := by decide
  flashSize_lt := by decide
  room := by decide

def segment (conn : Nat) (data : List UInt8) (short : data.length ≤ uipTcpMss) : Event where
  conn := conn
  closed := false
  aborted := false
  timedout := false
  poll := false
  connected := false
  newdata := true
  acked := false
  rexmit := false
  data := data
  stale := []
  mss := uipTcpMss
  len := 0
  memory := true
  freed := []
  data_le := short

theorem segment_isData {data : List UInt8} (short : data.length ≤ uipTcpMss)
    (nonempty : data ≠ []) : (segment conn data short).IsData :=
  ⟨rfl, rfl, rfl, rfl, rfl, rfl, rfl, rfl, nonempty⟩

/-- The name of the input, and blanks that make it equally long for every type. -/
def sampleInput : UpgradeType → String
  | .firmware => " name=\"firmware\""
  | .uboot => "    name=\"uboot\""
  | .art => "      name=\"art\""

def samplePart (type : UpgradeType) : List UInt8 :=
  text "--xx\r\nContent-Disposition: form-data;" ++ text (sampleInput type) ++ eol2

theorem samplePart_length (type : UpgradeType) : (samplePart type).length = 57 := by
  cases type <;> rfl

/-- A request with or without a blank behind `Content-Length:`. -/
def sampleHead (blank : Bool) : List UInt8 :=
  text "POST / HTTP/1.1\r\nContent-Length:" ++ text (if blank then " 10300" else "110300") ++
    text "\r\nContent-Type: multipart/form-data; boundary=xx\r\n\r\n"

def samplePost (blank : Bool) (type : UpgradeType) : MultipartPost where
  head := sampleHead blank
  value := text "xx"
  part := samplePart type
  file := List.replicate (if blank then 10233 else 110233) 0
  headText := by cases blank <;> decide
  partText := by cases type <;> decide
  oneLine := by decide
  parameter := ⟨75, by cases blank <;> decide⟩
  delimiterFirst := by cases blank <;> cases type <;> decide
  blankLast := by cases type <;> rfl

theorem sampleFirst_fits (blank : Bool) (type : UpgradeType) :
    (sampleHead blank ++ samplePart type).length ≤ uipTcpMss := by
  rw [List.length_append, samplePart_length]
  cases blank <;> decide

def sampleFirst (blank : Bool) (type : UpgradeType) : Event :=
  segment 0 (sampleHead blank ++ samplePart type) (sampleFirst_fits blank type)

def zeros (count : Nat) (short : count ≤ uipTcpMss) : Event :=
  segment 0 (List.replicate count 0) (by rwa [List.length_replicate])

def sampleLast (blank : Bool) : Event :=
  zeros (if blank then 111 else 1446) (by cases blank <;> decide)

theorem samplePart_choice (board : Board) (more : List UInt8) :
    inputChoice board (samplePart .firmware ++ more) = some (some .firmware, false) := by
  have named : strstr (text "name=\"firmware\"") (samplePart .firmware) = some 38 := by
    rfl
  rw [inputChoice, strstr_extend more named, Option.isSome_some, if_pos rfl]

theorem sampleFirst_chunk {board : Board} {type : UpgradeType}
    {choice : Option UpgradeType × Bool} (chosen : inputChoice board (samplePart type) = some choice)
    (blank : Bool) :
    firstChunk board (text "--xx") (sampleFirst blank type).data =
      some ⟨choice, (samplePart type).length, []⟩ := by
  have found := (samplePost blank type).firstChunk_part board [] List.suffix_rfl
  have delimiter : text "--" ++ text "xx" = text "--xx" := by rfl
  change firstChunk board (text "--" ++ text "xx") _ =
    (inputChoice board (samplePart type ++ cString [])).map _ at found
  rw [delimiter, List.append_nil, cString, List.takeWhile_nil, List.append_nil, chosen] at found
  exact found

theorem sampleFirst_opens (blank : Bool) (type : UpgradeType) :
    Opens (sampleFirst blank type) 10300 (text "--xx") := by
  refine ⟨?_, by decide, ⟨text "xx", ?_, by rfl⟩, rfl⟩
  · cases blank <;> cases type <;> rfl
  · cases blank <;> cases type <;> rfl

theorem sampleFirst_asked (blank : Bool) (type : UpgradeType) :
    (sampleFirst blank type).isGet = false ∧ (sampleFirst blank type).isPost = true := by
  cases blank <;> cases type <;> decide

theorem zeros_isData {count : Nat} (short : count ≤ uipTcpMss) (some : count ≠ 0) :
    (zeros count short).IsData := by
  apply segment_isData
  intro empty
  rw [List.replicate_eq_nil_iff] at empty
  exact some empty

theorem sampleFirst_isData (blank : Bool) (type : UpgradeType) :
    (sampleFirst blank type).IsData := by
  apply segment_isData
  intro empty
  have none := congrArg List.length empty
  rw [List.length_append, samplePart_length] at none
  cases none

theorem zeros_data (rounds count : Nat) (short : count ≤ uipTcpMss) :
    (List.replicate rounds (zeros count short)).flatMap Event.data =
      List.replicate (rounds * count) 0 := by
  rw [List.flatMap_replicate]
  exact List.flatten_replicate_replicate

def sampleMiddle : List Event := List.replicate 7 (zeros 1446 (Nat.le_refl _))

theorem sampleMiddle_data : sampleMiddle.flatMap Event.data = List.replicate 10122 0 :=
  zeros_data 7 1446 (Nat.le_refl _)

theorem sampleMiddle_isData {event : Event} (member : event ∈ sampleMiddle) :
    event.conn = 0 ∧ event.IsData := by
  rw [List.eq_of_mem_replicate member]
  exact ⟨rfl, zeros_isData _ (by decide)⟩

/-- The segments of the upload in front of its last one. -/
def sampleEvents (blank : Bool) (type : UpgradeType) : List Event :=
  sampleFirst blank type :: sampleMiddle

/-- The server once the first segment is taken in. -/
def sampleOpened (board : Board) (server : Server) (type : UpgradeType)
    (choice : Option UpgradeType × Bool) : Server :=
  { (server.accept board 0 10300 (text "--xx")).begin board 0 (text "--xx")
      ⟨choice, (samplePart type).length, []⟩ with dataStartFound := true }

/-- The whole upload but its last segment, on any board and after any history. -/
theorem sample_feed {board : Board} {server : Server} {type : UpgradeType}
    {choice : Option UpgradeType × Bool} (chosen : inputChoice board (samplePart type) = some choice)
    (blank : Bool) (fresh : (server.conns 0).state = .none) :
    feed board server (sampleEvents blank type) =
        some (sampleMiddle.foldl Server.advance (sampleOpened board server type choice)) ∧
      Underway (sampleMiddle.foldl Server.advance (sampleOpened board server type choice)) 0
        10122 10233 := by
  obtain ⟨get, isPost⟩ := sampleFirst_asked blank type
  have opened : feedOne board server (sampleFirst blank type) =
      some (sampleOpened board server type choice) := by
    rw [feedOne_opens (sampleFirst_isData blank type) fresh get isPost
      (sampleFirst_opens blank type), open_found (sampleFirst_chunk chosen blank)]
    rfl
  have started : Underway (sampleOpened board server type choice) 0 0 10233 := by
    have uploading : ((server.accept board 0 10300 (text "--xx")).conns 0).state =
        .uploadRequest := by rw [accept_conn]
    have begun := Underway.begin board (text "--xx")
      ⟨choice, (samplePart type).length, []⟩ uploading (rfl : true = true)
    have size : sub32 10300 (57 + (text "--xx").length + 6) = 10233 := by rfl
    simp only [accept_conn, samplePart_length, size] at begun
    rwa [← samplePart_length type] at begun
  have advanced := feed_advance board started
    (fun event member => sampleMiddle_isData member)
    (by rw [sampleMiddle_data, List.length_replicate]; decide) (by decide)
  rw [sampleMiddle_data, List.length_replicate] at advanced
  rw [sampleEvents, feed_cons, opened, Option.bind_some]
  exact advanced

/-- The last segment completes it. -/
theorem sample_last (board : Board) {server : Server} (blank : Bool)
    (underway : Underway server 0 10122 10233) :
    httpdAppcall board server (sampleLast blank) =
      (server.advance (sampleLast blank)).complete board (sampleLast blank) := by
  have isData : (sampleLast blank).IsData := zeros_isData _ (by cases blank <;> decide)
  have size : (sampleLast blank).data.length = if blank then 111 else 1446 :=
    List.length_replicate
  rw [appcall_upload board isData underway.state, handleUpload_started board underway.started,
    if_pos]
  change (server.conns 0).uploadTotal ≤ ((server.conns 0).upload + _) % 2 ^ 32
  rw [underway.upload, underway.uploadTotal, size]
  cases blank <;> decide

theorem sampleEvents_isData {blank : Bool} {event : Event}
    (member : event ∈ sampleEvents blank .firmware ++ [sampleLast blank]) :
    event.conn = 0 ∧ event.IsData := by
  rw [sampleEvents, List.cons_append, List.mem_cons, List.mem_append, List.mem_singleton] at member
  obtain rfl | inside | rfl := member
  · exact ⟨rfl, sampleFirst_isData blank .firmware⟩
  · exact sampleMiddle_isData inside
  · exact ⟨rfl, zeros_isData _ (by cases blank <;> decide)⟩

theorem sample_segments (blank : Bool) : segments (sampleEvents blank .firmware ++ [sampleLast blank]) =
    sampleFirst blank .firmware :: (sampleMiddle ++ [sampleLast blank]) := by
  apply List.filter_eq_self.mpr
  intro event member
  rw [(sampleEvents_isData member).2.called]
  rfl

theorem sample_payload (blank : Bool) :
    payload (sampleEvents blank .firmware ++ [sampleLast blank]) = sampleHead blank ++ samplePart .firmware ++
      List.replicate (10122 + if blank then 111 else 1446) 0 := by
  rw [payload, sample_segments, List.flatMap_cons, List.flatMap_append, sampleMiddle_data,
    ← List.replicate_append_replicate, List.flatMap_cons, List.flatMap_nil, List.append_nil]
  rfl

theorem replicate_front {byte : UInt8} {count total : Nat} (within : count ≤ total) :
    List.replicate count byte <+: List.replicate total byte :=
  ⟨List.replicate (total - count) byte, by
    rw [List.replicate_append_replicate, Nat.add_sub_cancel' within]⟩

theorem samplePost_file (blank : Bool) :
    (samplePost blank .firmware).file.length = if blank then 10233 else 110233 := List.length_replicate

theorem samplePost_bodyLength (blank : Bool) :
    (samplePost blank .firmware).bodyLength = if blank then 10300 else 110300 := by
  have part : (samplePost blank .firmware).part.length = 57 := by
    exact samplePart_length .firmware
  have value : (samplePost blank .firmware).value.length = 2 := by
    change (text "xx").length = 2
    rfl
  rw [MultipartPost.bodyLength_eq, MultipartPost.delimiter_length, part, value, samplePost_file]
  cases blank <;> rfl

theorem sample_declared (blank : Bool) :
    (segments (sampleEvents blank .firmware)).head?.bind contentLength = some 10300 := by
  have opening : (segments (sampleEvents blank .firmware)).head? = some (sampleFirst blank .firmware) := rfl
  rw [opening, Option.bind_some, (sampleFirst_opens blank .firmware).declared]

theorem sample_completes (blank : Bool) :
    ∃ after, Completes sampleBoard (samplePost blank .firmware) (booted (fun _ => 0) 0 0) 0
      (sampleEvents blank .firmware) (sampleLast blank) after := by
  have chosen := samplePart_choice sampleBoard []
  rw [List.append_nil] at chosen
  obtain ⟨fed, underway⟩ := sample_feed chosen blank
    (rfl : ((booted (fun _ => 0) 0 0).conns 0).state = .none)
  have last := sample_last sampleBoard blank underway
  refine ⟨_, ⟨rfl, ?_, ?_, ?_, ⟨_, fed, underway.state, congrArg Prod.fst last⟩,
    (complete_result rfl).2.2.2⟩⟩
  · intro event member
    obtain ⟨conn, isData⟩ := sampleEvents_isData member
    exact ⟨conn, Or.inl isData⟩
  · intro earlier front
    rw [sample_segments] at front
    cases earlier with
    | nil => exact Or.inl (Nat.zero_le _)
    | cons first rest =>
        obtain ⟨rfl, -⟩ := List.cons_prefix_cons.mp front
        rw [List.flatMap_cons, List.length_append]
        have data : (sampleFirst blank .firmware).data.length =
            (samplePost blank .firmware).head.length + (samplePost blank .firmware).part.length := List.length_append
        omega
  · rw [sample_payload]
    change _ <+: sampleHead blank ++ samplePart .firmware ++ List.replicate _ 0 ++ (samplePost blank .firmware).closing
    rw [List.append_assoc _ (List.replicate _ _), List.prefix_append_right_inj]
    exact (replicate_front (by cases blank <;> decide)).trans (List.prefix_append _ _)

theorem sample_fits (blank : Bool) : (samplePost blank .firmware).Fits sampleBoard := by
  intro more _
  refine ⟨.firmware, samplePart_choice sampleBoard (cString more), ?_⟩
  rw [samplePost_file]
  cases blank <;> decide

theorem upload_reassembles_iff_sample : ∃ after,
    Completes sampleBoard (samplePost true .firmware) (booted (fun _ => 0) 0 0) 0 (sampleEvents true .firmware)
      (sampleLast true) after ∧ Stored sampleBoard after (samplePost true .firmware).file := by
  obtain ⟨after, completes⟩ := sample_completes true
  refine ⟨after, completes, (upload_reassembles_iff (sample_fits true) completes).mpr
    ⟨?_, Or.inl rfl⟩⟩
  rw [sample_declared, samplePost_bodyLength]
  rfl

/-- Without the blank that HTTP leaves to the sender, the first digit of the length is lost. -/
theorem unspacedLength_loses_file : (samplePost false .firmware).Fits sampleBoard ∧
    ∃ after, Completes sampleBoard (samplePost false .firmware) (booted (fun _ => 0) 0 0) 0
      (sampleEvents false .firmware) (sampleLast false) after ∧
        ¬ Stored sampleBoard after (samplePost false .firmware).file := by
  obtain ⟨after, completes⟩ := sample_completes false
  refine ⟨sample_fits false, after, completes, ?_⟩
  intro stored
  obtain ⟨total, ended⟩ := completes.ended (sample_fits false)
  have same := ended.total_eq (sample_fits false) stored
  have declared := ended.declared
  rw [sample_declared, same, samplePost_bodyLength] at declared
  cases declared

end Rut9xx.Httpd
