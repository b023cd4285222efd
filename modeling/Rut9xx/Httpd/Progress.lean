import Rut9xx.Httpd.Upload

namespace Rut9xx.Httpd

open Data

/-! # The segments of one upload -/

variable {board : Board} {server before after : Server} {event : Event} {events : List Event}
  {post : MultipartPost} {conn : Nat} {output : Output}

/-! ## The events of a connection -/

/-- The server after an event that leaves the connection open. -/
def feedOne (board : Board) (server : Server) (event : Event) : Option Server :=
  match httpdAppcall board server event with
  | (_, .close) => none
  | (_, .abort) => none
  | (after, _) => some after

def feed (board : Board) (server : Server) (events : List Event) : Option Server :=
  events.foldlM (feedOne board) server

theorem feed_concat : feed board server (events ++ [event]) =
    (feed board server events).bind fun server => feedOne board server event := by
  simp only [feed, List.foldlM_append, List.foldlM_cons, List.foldlM_nil, Option.bind_eq_bind,
    bind_pure]

theorem feedOne_some (fed : feedOne board server event = some after) :
    ∃ output, httpdAppcall board server event = (after, output) ∧ output ≠ .close ∧
      output ≠ .abort := by
  unfold feedOne at fed
  split at fed
  · cases fed
  · cases fed
  · rename_i output notClosed notAborted result
    cases fed
    refine ⟨output, result, ?_, ?_⟩
    · rintro rfl
      exact notClosed rfl
    · rintro rfl
      exact notAborted rfl

/-- The segments among the events. -/
def segments (events : List Event) : List Event := events.filter fun event => !event.poll

def payload (events : List Event) : List UInt8 := (segments events).flatMap Event.data

theorem segments_data (called : event.poll = false) :
    segments (events ++ [event]) = segments events ++ [event] := by
  simp [segments, called]

theorem segments_poll (events : List Event) (called : event.poll = true) :
    segments (events ++ [event]) = segments events := by
  simp [segments, called]

theorem payload_data (called : event.poll = false) :
    payload (events ++ [event]) = payload events ++ event.data := by
  simp [payload, segments_data called]

theorem feedOne_quiet (called : httpdAppcall board server event = (after, .quiet)) :
    feedOne board server event = some after := by
  rw [feedOne, called]

theorem feed_cons : feed board server (event :: events) =
    (feedOne board server event).bind fun server => feed board server events := rfl

/-- A POST that is taken in leaves the connection open. -/
theorem feedOne_opens {total : Nat} {delimiter : List UInt8} (isData : event.IsData)
    (state : (server.conns event.conn).state = .none) (get : event.isGet = false)
    (isPost : event.isPost = true) (opens : Opens event total delimiter) :
    feedOne board server event = some (server.open board event total delimiter) := by
  apply feedOne_quiet
  rw [appcall_request board isData state, Server.handleRequest, if_neg (by rw [get]; simp),
    if_pos isPost, handlePost_opens opens]

theorem open_found {total : Nat} {delimiter : List UInt8} {first : FirstChunk}
    (found : firstChunk board delimiter event.data = some first) :
    server.open board event total delimiter =
      { (server.accept board event.conn total delimiter).begin board event.conn delimiter first with
        dataStartFound := true } := by
  simp only [Server.open, findAndStore_found accept_boundaryString found]

/-- Segments that do not reach the total are stored one after the other. -/
theorem feed_advance (board : Board) {upload total : Nat} (underway : Underway server conn upload total)
    (segments : ∀ event ∈ events, event.conn = conn ∧ event.IsData)
    (below : upload + (events.flatMap Event.data).length < total) (fits : total < 2 ^ 32) :
    feed board server events = some (events.foldl Server.advance server) ∧
      Underway (events.foldl Server.advance server) conn
        (upload + (events.flatMap Event.data).length) total := by
  induction events generalizing server upload with
  | nil => exact ⟨rfl, underway⟩
  | cons event events ih =>
      obtain ⟨rfl, isData⟩ := segments event List.mem_cons_self
      rw [List.flatMap_cons, List.length_append, ← Nat.add_assoc] at below ⊢
      have size : (upload + event.data.length) % 2 ^ 32 = upload + event.data.length :=
        Nat.mod_eq_of_lt (by omega)
      have next : Underway (server.advance event) event.conn _ total := underway.advance
      rw [size] at next
      have quiet : httpdAppcall board server event = (server.advance event, .quiet) := by
        rw [appcall_upload board isData underway.state, handleUpload_started board underway.started,
          underway.upload, underway.uploadTotal, size, if_neg (by omega)]
      rw [feed_cons, feedOne_quiet quiet, Option.bind_some, List.foldl_cons]
      exact ih next (fun event member => segments event (List.mem_cons_of_mem _ member)) below

/-! ## What has arrived -/

/-- No segment border lies inside the header of the part. -/
def MultipartPost.Unsplit (post : MultipartPost) (events : List Event) : Prop :=
  ∀ earlier, earlier <+: segments events →
    (earlier.flatMap Event.data).length ≤ post.head.length ∨
      post.head.length + post.part.length ≤ (earlier.flatMap Event.data).length

/-- However much of the file shares the segment, the input names a type that the board takes,
and the file is within the limits. -/
def MultipartPost.Fits (post : MultipartPost) (board : Board) : Prop :=
  ∀ more, more <+: post.file ++ post.closing → ∃ type,
    inputChoice board (post.part ++ cString more) = some (some type, false) ∧
      sizeRefused board type post.file.length = false

/-- The data that shares the segment with the header of the part. -/
def MultipartPost.FirstData (post : MultipartPost) (events : List Event) (chunk : List UInt8) :
    Prop :=
  ∃ earlier segment later, segments events = earlier ++ segment :: later ∧
    (earlier.flatMap Event.data).length ≤ post.head.length ∧
      earlier.flatMap Event.data ++ segment.data = post.head ++ post.part ++ chunk

/-- Where a connection is after some of the events of a POST. -/
inductive Progress (board : Board) (post : MultipartPost) (start : Server) (conn : Nat)
    (events : List Event) (server : Server) : Prop where
  | fresh (none : segments events = []) (state : (server.conns conn).state = .none)
      (same : server.uploadFailed = start.uploadFailed) (ram : server.ram = start.ram)
  | aside (state : (server.conns conn).state = .fileRequest ∨
      (server.conns conn).state = .serialRequest)
  | waiting (first : Event) (total : Nat) (only : segments events = [first])
      (front : first.data <+: post.head) (opens : Opens first total post.delimiter)
      (state : (server.conns conn).state = .uploadRequest)
      (uploadTotal : (server.conns conn).uploadTotal = total)
      (missing : server.dataStartFound = false) (boundary : server.boundary = .live post.delimiter)
      (pointer : server.dataPointer = board.loadAddr)
      (same : server.uploadFailed = start.uploadFailed)
      (ram : server.ram = (start.clearRam board).ram)
  | underway (first : Event) (total : Nat) (received : List UInt8)
      (opening : (segments events).head? = some first) (opens : Opens first total post.delimiter)
      (arrived : payload events = post.head ++ post.part ++ received)
      (upload : ∃ count, Underway server conn count
        (sub32 total (post.part.length + post.delimiter.length + 6)))
      (intact : start.uploadFailed = false → total = post.bodyLength →
        Underway server conn received.length post.file.length ∧
          received.length < post.file.length ∧
            Receiving board server received post.file.length)
      (chunk : List UInt8) (begun : post.FirstData events chunk) (ahead : chunk <+: received)
      (stale : start.uploadFailed = true → server.uploadFailed = true ∧
        server.ram = store (start.clearRam board).ram board.loadAddr chunk)

variable {start : Server}

/-- A call between two segments only counts. -/
theorem feedOne_poll (isPoll : event.IsPoll) (fed : feedOne board server event = some after) :
    ∃ count, after = server.setConn event.conn { server.conns event.conn with count := count } := by
  obtain ⟨output, result, -, notAborted⟩ := feedOne_some fed
  rw [appcall_poll board isPoll] at result
  simp only at result
  split at result
  · cases result
    exact absurd rfl notAborted
  · cases result
    exact ⟨_, rfl⟩

theorem Progress.poll (progress : Progress board post start event.conn events server)
    (isPoll : event.IsPoll) (fed : feedOne board server event = some after) :
    Progress board post start event.conn (events ++ [event]) after := by
  obtain ⟨count, rfl⟩ := feedOne_poll isPoll fed
  have same := segments_poll events isPoll.called
  cases progress with
  | fresh none state failed ram => exact .fresh (same ▸ none) (by simpa using state) failed ram
  | aside state => exact .aside (by simpa using state)
  | waiting first total only front opens state uploadTotal missing boundary pointer failed ram =>
      exact .waiting first total (same ▸ only) front opens (by simpa using state)
        (by simpa using uploadTotal) missing boundary pointer failed ram
  | underway first total received opening opens arrived upload intact chunk begun ahead stale =>
      have kept {upload size : Nat} (underway : Underway server event.conn upload size) :
          Underway (server.setConn event.conn { server.conns event.conn with count := count })
            event.conn upload size :=
        ⟨by simpa using underway.state, underway.started, by simpa using underway.upload,
          by simpa using underway.uploadTotal⟩
      refine .underway first total received (same ▸ opening) opens ?_ ?_ ?_ chunk ?_ ahead stale
      · simpa only [payload, same] using arrived
      · obtain ⟨upload, underway⟩ := upload
        exact ⟨upload, kept underway⟩
      · intro accepted declared
        obtain ⟨underway, room, receiving⟩ := intact accepted declared
        exact ⟨kept underway, room,
          ⟨receiving.pointer, receiving.stored, receiving.accepted, receiving.within⟩⟩
      · simpa only [MultipartPost.FirstData, same] using begun

/-! ## The first chunk -/

/-- A server that looks for the start of the data of the POST. -/
structure Expecting (board : Board) (post : MultipartPost) (start : Server) (total : Nat)
    (server : Server) (event : Event) : Prop where
  large : 10240 ≤ total
  state : (server.conns event.conn).state = .uploadRequest
  uploadTotal : (server.conns event.conn).uploadTotal = total
  boundary : server.boundaryString event = some post.delimiter
  pointer : server.dataPointer = board.loadAddr
  same : server.uploadFailed = start.uploadFailed
  ram : server.ram = (start.clearRam board).ram

theorem expecting_accept (board : Board) {total : Nat} (opens : Opens event total post.delimiter)
    (same : server.uploadFailed = start.uploadFailed) (ram : server.ram = start.ram) :
    Expecting board post start total (server.accept board event.conn total post.delimiter) event :=
  ⟨opens.large, by simp, by simp, by simp, rfl, same, by
    simp [Server.accept, Server.clearRam, Server.setConn, ram]⟩

/-- The data of a segment with the header of the part, wherever it begins in the head. -/
theorem Expecting.begin {total : Nat} {front chunk : List UInt8}
    (expecting : Expecting board post start total server event) (fits : post.Fits board)
    (suffix : front <:+ post.head) (data : event.data = front ++ post.part ++ chunk)
    (ahead : chunk <+: post.file ++ post.closing) :
    ∃ begun, server.findAndStoreFirstChunk board event = (true, begun) ∧ ∀ found, found = true →
      Underway { begun with dataStartFound := found } event.conn chunk.length
          (sub32 total (post.part.length + post.delimiter.length + 6)) ∧
        (start.uploadFailed = false → total = post.bodyLength →
          Underway { begun with dataStartFound := found } event.conn chunk.length
              post.file.length ∧
            chunk.length < post.file.length ∧
              Receiving board { begun with dataStartFound := found } chunk post.file.length) ∧
        (start.uploadFailed = true → begun.uploadFailed = true ∧
          begun.ram = store (start.clearRam board).ram board.loadAddr chunk) := by
  obtain ⟨type, chosen, within⟩ := fits chunk ahead
  have first := post.firstChunk_part board chunk suffix
  rw [← data, chosen, Option.map_some] at first
  have uploadTotal := expecting.uploadTotal
  refine ⟨_, findAndStore_found expecting.boundary first, ?_⟩
  intro found isFound
  have underway := Underway.begin board post.delimiter
    ⟨(some type, false), post.part.length, chunk⟩ expecting.state isFound
  simp only [uploadTotal] at underway
  refine ⟨underway, ?_, ?_⟩
  · intro accepted declared
    have bound := total_lt within
    have segment := event.data_le
    have large := expecting.large
    have covers := post.delimiter_le
    have split := post.bodyLength_eq
    simp only [data, uipTcpMss, List.length_append] at segment
    have size : sub32 total (post.part.length + post.delimiter.length + 6) = post.file.length := by
      rw [sub32_of_le (by omega) (by omega)]
      omega
    refine ⟨size ▸ underway, by omega, ?_⟩
    apply Receiving.begin rfl (expecting.same.trans accepted) expecting.pointer _ within
    rw [uploadTotal]
    exact size
  · intro refused
    have stored := begin_refused board event.conn post.delimiter
      ⟨(some type, false), post.part.length, chunk⟩ (expecting.same.trans refused)
    rwa [expecting.pointer, expecting.ram] at stored

/-! ## The segments -/

theorem feedOne_data {result : Server × Output} (fed : feedOne board server event = some after)
    (called : httpdAppcall board server event = result) :
    after = result.1 ∧ result.2 ≠ .close ∧ result.2 ≠ .abort := by
  obtain ⟨output, same, notClosed, notAborted⟩ := feedOne_some fed
  rw [called] at same
  subst same
  exact ⟨rfl, notClosed, notAborted⟩

/-- A segment in front of the border, or with the whole header of the part. -/
theorem MultipartPost.Unsplit.data (unsplit : post.Unsplit (events ++ [event]))
    (isData : event.IsData) :
    (payload events ++ event.data).length ≤ post.head.length ∨
      post.head.length + post.part.length ≤ (payload events ++ event.data).length := by
  have border := unsplit (segments (events ++ [event])) List.prefix_rfl
  rwa [← payload, payload_data isData.called] at border

theorem prefix_split {whole front back rest : List UInt8} (same : whole <+: front ++ back ++ rest)
    (long : front.length + back.length ≤ whole.length) :
    ∃ chunk, whole = front ++ back ++ chunk ∧ chunk <+: rest := by
  obtain ⟨more, split⟩ := same
  obtain ⟨chunk, rfl⟩ := List.prefix_of_prefix_length_le (List.prefix_append (front ++ back) rest)
    (split ▸ List.prefix_append whole more) (by rwa [List.length_append])
  rw [List.append_assoc _ chunk, List.append_cancel_left_eq] at split
  exact ⟨chunk, rfl, more, split⟩

theorem Progress.first (state : (server.conns event.conn).state = .none)
    (same : server.uploadFailed = start.uploadFailed) (ram : server.ram = start.ram)
    (none : segments events = [])
    (isData : event.IsData) (fits : post.Fits board) (unsplit : post.Unsplit (events ++ [event]))
    (arrived : payload (events ++ [event]) <+: post.request)
    (fed : feedOne board server event = some after) :
    Progress board post start event.conn (events ++ [event]) after := by
  have empty : payload events = [] := by rw [payload, none, List.flatMap_nil]
  have border := unsplit.data isData
  have alone : segments (events ++ [event]) = [event] := by
    rw [segments_data isData.called, none, List.nil_append]
  rw [payload_data isData.called, empty, List.nil_append] at arrived
  rw [empty, List.nil_append] at border
  have called := appcall_request board isData state
  obtain ⟨total, delimiter, get, isPost, opens⟩ | ⟨boundary, refused⟩ | ⟨page, served⟩ | small |
    serial := handleRequest_cases board server event
  · have request : server.handleRequest board event =
        (server.open board event total delimiter, .quiet) := by
      simp only [Server.handleRequest, get, isPost, Bool.false_eq_true, if_false, if_true]
      exact handlePost_opens opens
    obtain ⟨rfl, -, -⟩ := feedOne_data fed (called.trans request)
    have front : event.data <+: post.head ++ (post.part ++ post.file ++ post.closing) := by
      simpa only [MultipartPost.request, List.append_assoc] using arrived
    have same : delimiter = post.delimiter := by
      obtain ⟨value, parameter, rfl⟩ := opens.parameter
      rw [post.boundaryParameter_eq front parameter]
      rfl
    subst same
    have expecting := expecting_accept board opens same ram
    obtain inHead | withPart := border
    · have within : event.data <+: post.head :=
        List.prefix_of_prefix_length_le front (List.prefix_append _ _) inHead
      have missing := findAndStore_absent board expecting.boundary
        (post.delimiter_missing List.suffix_rfl within)
      refine .waiting event total alone within opens ?_ ?_ ?_ ?_ ?_ ?_ ?_
      all_goals simp only [Server.open, missing]
      · exact expecting.state
      · exact expecting.uploadTotal
      · rfl
      · exact expecting.pointer
      · exact expecting.same
      · exact expecting.ram
    · obtain ⟨chunk, data, ahead⟩ := prefix_split (by
        simpa only [MultipartPost.request, List.append_assoc] using arrived) withPart
      obtain ⟨begun, stored, underway⟩ := expecting.begin fits List.suffix_rfl data ahead
      obtain ⟨underway, intact, stale⟩ := underway true rfl
      refine .underway event total chunk (by rw [alone]; rfl) opens ?_ ?_ ?_ chunk
        ⟨[], event, [], alone, Nat.zero_le _, data⟩ List.prefix_rfl ?_
      · rw [payload, alone, List.flatMap_cons, List.flatMap_nil, List.append_nil, data]
      · simp only [Server.open, stored]
        exact ⟨_, underway⟩
      · simp only [Server.open, stored]
        exact intact
      · simp only [Server.open, stored]
        exact stale
  · obtain ⟨-, -, notAborted⟩ := feedOne_data fed (called.trans refused)
    exact absurd rfl notAborted
  · obtain ⟨rfl, -, -⟩ := feedOne_data fed (called.trans served)
    exact .aside (Or.inl (by simp [Server.servePage]))
  · obtain ⟨rfl, -, -⟩ := feedOne_data fed (called.trans small)
    exact .aside (Or.inl (by simp [Server.servePage]))
  · obtain ⟨rfl, -, -⟩ := feedOne_data fed (called.trans serial)
    exact .aside (Or.inr (by simp))

theorem Progress.second {first : Event} {total : Nat} (only : segments events = [first])
    (opens : Opens first total post.delimiter)
    (expecting : Expecting board post start total server event)
    (front : first.data <+: post.head) (missing : server.dataStartFound = false)
    (isData : event.IsData) (fits : post.Fits board) (unsplit : post.Unsplit (events ++ [event]))
    (arrived : payload (events ++ [event]) <+: post.request)
    (fed : feedOne board server event = some after) :
    Progress board post start event.conn (events ++ [event]) after := by
  have earlier : payload events = first.data := by
    rw [payload, only, List.flatMap_cons, List.flatMap_nil, List.append_nil]
  have border := unsplit.data isData
  rw [payload_data isData.called, earlier] at arrived
  rw [earlier] at border
  have called := appcall_upload board isData expecting.state
  obtain ⟨tail, head⟩ := front
  have suffix : tail <:+ post.head := ⟨first.data, head⟩
  have ahead : event.data <+: tail ++ (post.part ++ post.file ++ post.closing) := by
    rw [MultipartPost.request, ← head] at arrived
    simpa only [List.append_assoc, List.prefix_append_right_inj] using arrived
  rw [← head] at border
  simp only [List.length_append, Nat.add_le_add_iff_left, Nat.add_assoc] at border
  obtain inHead | withPart := border
  · have within : event.data <+: tail :=
      List.prefix_of_prefix_length_le ahead (List.prefix_append _ _) inHead
    have absent := findAndStore_absent board expecting.boundary
      (post.delimiter_missing suffix within)
    have refused : server.handleUpload board event = server.refuse event := by
      simp only [Server.handleUpload, missing, if_true, absent, Bool.false_eq_true, if_false]
    obtain ⟨-, -, notAborted⟩ := feedOne_data fed (called.trans refused)
    exact absurd rfl notAborted
  · obtain ⟨chunk, data, rest⟩ := prefix_split (by
      simpa only [List.append_assoc] using ahead) withPart
    obtain ⟨begun, stored, underway⟩ := expecting.begin fits suffix data rest
    obtain ⟨underway, intact, stale⟩ := underway true rfl
    have taken : server.handleUpload board event =
        ({ begun with dataStartFound := true }, .quiet) := by
      simp only [Server.handleUpload, missing, if_true, stored]
    obtain ⟨rfl, -, -⟩ := feedOne_data fed (called.trans taken)
    have whole : first.data ++ event.data = post.head ++ post.part ++ chunk := by
      rw [data, ← head]
      simp only [List.append_assoc]
    have opened : segments (events ++ [event]) = [first] ++ event :: [] := by
      rw [segments_data isData.called, only]
    refine .underway first total chunk (by rw [opened]; rfl) opens ?_ ⟨_, underway⟩ intact chunk
      ⟨[first], event, [], opened, ?_, ?_⟩ List.prefix_rfl stale
    · rw [payload_data isData.called, earlier, whole]
    · rw [List.flatMap_cons, List.flatMap_nil, List.append_nil, ← head, List.length_append]
      exact Nat.le_add_right _ _
    · rw [List.flatMap_cons, List.flatMap_nil, List.append_nil, whole]

theorem Progress.next {first : Event} {total : Nat} {received : List UInt8}
    (opening : (segments events).head? = some first) (opens : Opens first total post.delimiter)
    (arrived : payload events = post.head ++ post.part ++ received)
    (upload : ∃ count, Underway server event.conn count
      (sub32 total (post.part.length + post.delimiter.length + 6)))
    (intact : start.uploadFailed = false → total = post.bodyLength →
      Underway server event.conn received.length post.file.length ∧
        received.length < post.file.length ∧ Receiving board server received post.file.length)
    {chunk : List UInt8} (begun : post.FirstData events chunk) (ahead : chunk <+: received)
    (stale : start.uploadFailed = true → server.uploadFailed = true ∧
      server.ram = store (start.clearRam board).ram board.loadAddr chunk)
    (isData : event.IsData) (fed : feedOne board server event = some after) :
    Progress board post start event.conn (events ++ [event]) after := by
  obtain ⟨count, underway⟩ := upload
  have called := (appcall_upload board isData underway.state).trans
    (handleUpload_started board underway.started)
  split at called
  · obtain ⟨rfl, -, -⟩ := feedOne_data fed called
    exact .aside (Or.inl (complete_result rfl).2.2.2)
  · rename_i short
    obtain ⟨rfl, -, -⟩ := feedOne_data fed called
    refine .underway first total (received ++ event.data) ?_ opens ?_ ?_ ?_ chunk ?_
      (ahead.trans (List.prefix_append _ _)) ?_
    · rw [segments_data isData.called, List.head?_append, opening]
      rfl
    · rw [payload_data isData.called, arrived, List.append_assoc _ received]
    · exact ⟨_, underway.advance⟩
    · intro accepted declared
      obtain ⟨same, room, receiving⟩ := intact accepted declared
      have small := total_lt receiving.within
      have segment := event.data_le
      simp only [uipTcpMss] at segment
      have next := same.advance
      rw [Nat.mod_eq_of_lt (by omega), ← List.length_append] at next
      rw [same.upload, same.uploadTotal, Nat.mod_eq_of_lt (by omega), ← List.length_append] at short
      exact ⟨next, Nat.lt_of_not_le short, receiving.advance⟩
    · obtain ⟨earlier, segment, later, split, front, whole⟩ := begun
      refine ⟨earlier, segment, later ++ [event], ?_, front, whole⟩
      rw [segments_data isData.called, split, List.append_assoc, List.cons_append]
    · intro refused
      obtain ⟨failed, ram⟩ := stale refused
      obtain ⟨failedNext, same, -⟩ := advance_refused event failed
      exact ⟨failedNext, same.trans ram⟩

/-- A connection that is sent a page takes no more data. -/
theorem feedOne_aside (isData : event.IsData)
    (state : (server.conns event.conn).state = .fileRequest ∨
      (server.conns event.conn).state = .serialRequest)
    (fed : feedOne board server event = some after) :
    (after.conns event.conn).state = .fileRequest ∨
      (after.conns event.conn).state = .serialRequest := by
  obtain file | serial := state
  · have called : httpdAppcall board server event = (server, .quiet) := by
      simp [httpdAppcall, isData.open', isData.alive, isData.timely, isData.called,
        isData.established, isData.nothingSent, isData.noRetransmission, file]
    obtain ⟨rfl, -, -⟩ := feedOne_data fed called
    exact Or.inl file
  · have called : httpdAppcall board server event = (server.reset event.conn, .close) := by
      simp [httpdAppcall, isData.open', isData.alive, isData.timely, isData.called,
        isData.established, serial]
    obtain ⟨-, notClosed, -⟩ := feedOne_data fed called
    exact absurd rfl notClosed

theorem MultipartPost.Unsplit.front (unsplit : post.Unsplit (events ++ [event])) :
    post.Unsplit events := by
  intro earlier inFront
  apply unsplit earlier
  apply inFront.trans
  rw [segments, segments, List.filter_append]
  exact List.prefix_append _ _

theorem payload_front : payload events <+: payload (events ++ [event]) := by
  rw [payload, payload, segments, segments, List.filter_append, List.flatMap_append]
  exact List.prefix_append _ _

/-- The events of a connection while a POST arrives. -/
def Arriving (conn : Nat) (events : List Event) : Prop :=
  ∀ event ∈ events, event.conn = conn ∧ (event.IsData ∨ event.IsPoll)

theorem progress_of_feed (fresh : (start.conns conn).state = .none) (fits : post.Fits board)
    (arriving : Arriving conn events) (unsplit : post.Unsplit events)
    (arrived : payload events <+: post.request) (fed : feed board start events = some server) :
    Progress board post start conn events server := by
  induction events using List.reverseRecOn generalizing server with
  | nil =>
      cases fed
      exact .fresh rfl fresh rfl rfl
  | append_singleton events event ih =>
      rw [feed_concat, Option.bind_eq_some_iff] at fed
      obtain ⟨before, fedBefore, fed⟩ := fed
      have progress := ih (fun event member => arriving event (List.mem_append_left _ member))
        unsplit.front (payload_front.trans arrived) fedBefore
      obtain ⟨rfl, isData | isPoll⟩ := arriving event (by simp)
      · cases progress with
        | fresh none state same ram =>
            exact .first state same ram none isData fits unsplit arrived fed
        | aside state => exact .aside (feedOne_aside isData state fed)
        | waiting first total only front opens state uploadTotal missing boundary pointer same ram =>
            have expecting : Expecting board post start total before event :=
              ⟨opens.large, state, uploadTotal, by rw [Server.boundaryString, boundary], pointer,
                same, ram⟩
            exact .second only opens expecting front missing isData fits unsplit arrived fed
        | underway first total received opening opens before upload intact chunk begun ahead stale =>
            exact .next opening opens before upload intact begun ahead stale isData fed
      · exact progress.poll isPoll fed

end Rut9xx.Httpd
