import Rut9xx.Data.Allocations
import Rut9xx.Httpd.Isolation

namespace Rut9xx.Httpd

open Data

/-! # Who owns the boundary string -/

variable {board : Board} {server : Server} {event : Event} {events : List Event} {heap : Heap}

/-! ## The calls that go through `httpd_state_reset` -/

/-- A request that is not taken in resets the connection, unless a page is found for it. -/
def Event.requestResets (board : Board) (event : Event) : Bool :=
  if event.isGet then event.nameLength.isNone
  else if event.isPost then
    match contentLength event with
    | none => true
    | some uploadTotal =>
        uploadTotal < 10240 || (boundaryParameter event).isNone || !event.memory
  else !event.isSerial board

/-- So does a segment without the start of the data, and one that completes an upload. -/
def Server.uploadResets (board : Board) (server : Server) (event : Event) : Bool :=
  if server.dataStartFound = false then !(server.findAndStoreFirstChunk board event).1
  else ((server.conns event.conn).upload + event.data.length) % 2 ^ 32 ≥
    (server.conns event.conn).uploadTotal

def Server.resets (board : Board) (server : Server) (event : Event) : Bool :=
  let hs := server.conns event.conn
  if event.closed then true
  else if event.aborted || event.timedout then true
  else if event.poll then hs.count ≥ 100
  else if event.connected then true
  else if event.newdata && hs.state = .none then event.requestResets board
  else if hs.state = .serialRequest then true
  else if event.acked then hs.state = .fileRequest && hs.upload ≤ event.mss
  else if event.rexmit then false
  else if event.newdata && hs.state = .uploadRequest then server.uploadResets board event
  else false

/-! ## What a call does with `boundary_value` -/

/-- `malloc` for the boundary of a POST, and whether it found room. -/
def Event.mallocs (event : Event) : Option Bool :=
  if event.isGet = false ∧ event.isPost = true then
    match contentLength event, boundaryParameter event with
    | some uploadTotal, some _ => if uploadTotal < 10240 then none else some event.memory
    | _, _ => none
  else none

/-- The request that a call handles, if any. -/
def Server.handlesRequest (server : Server) (event : Event) : Bool :=
  !(event.closed || event.aborted || event.timedout || event.poll || event.connected) &&
    event.newdata && (server.conns event.conn).state = .none

/-- `httpd_findandstore_firstchunk` is called for an upload under way. -/
def Server.looksForChunk (server : Server) (event : Event) : Bool :=
  !(event.closed || event.aborted || event.timedout || event.poll || event.connected ||
      event.acked || event.rexmit) &&
    event.newdata && (server.conns event.conn).state = .uploadRequest && !server.dataStartFound

/-- The `malloc` of a call, if there is one. -/
def Server.mallocs (server : Server) (event : Event) : Option Bool :=
  if server.handlesRequest event then event.mallocs else none

/-- The uses of `boundary_value` in a call, in their order, in front of a reset. -/
def Server.uses (server : Server) (event : Event) : List HeapOp :=
  match server.mallocs event with
  | some true => [.allocate, .read]
  | some false => [.exhaust]
  | none => if server.looksForChunk event then [.read] else []

def heapOps (board : Board) (server : Server) (event : Event) : List HeapOp :=
  server.uses event ++ if server.resets board event then [.free] else []

/-- The server and the heap after a history. -/
def watched (board : Board) (server : Server) (heap : Heap) (events : List Event) : Server × Heap :=
  events.foldl (fun (server, heap) event =>
    ((httpdAppcall board server event).1, heap.performAll (heapOps board server event)))
    (server, heap)

/-- The pointer of the heap is that of the server. -/
def Matches (boundary : Boundary) (heap : Heap) : Prop :=
  match boundary with
  | .null => heap.pointer = none
  | .live _ => ∃ target, heap.pointer = some target ∧ target ∉ heap.frees
  | .dangling => ∃ target, heap.pointer = some target ∧ target ∈ heap.frees

theorem Matches.pointer_none_iff {boundary : Boundary} (same : Matches boundary heap) :
    heap.pointer = none ↔ boundary = .null := by
  cases boundary with
  | null => simpa [Matches] using same
  | live value =>
      obtain ⟨target, points, -⟩ := same
      simp [points]
  | dangling =>
      obtain ⟨target, points, -⟩ := same
      simp [points]

/-! ## What becomes of the pointer -/

/-- `boundary_value` after `httpd_state_reset`. -/
def Boundary.released : Boundary → Boundary
  | .null => .null
  | _ => .dangling

theorem reset_boundary (server : Server) (conn : Nat) :
    (server.reset conn).boundary = server.boundary.released := by
  unfold Server.reset
  cases server.boundary <;> rfl

theorem findAndStore_boundary (board : Board) (server : Server) (event : Event) :
    (server.findAndStoreFirstChunk board event).2.boundary = server.boundary := by
  cases string : server.boundaryString event with
  | none => rw [Server.findAndStoreFirstChunk, string]
  | some delimiter =>
      cases found : firstChunk board delimiter event.data with
      | some first =>
          rw [findAndStore_found string found]
          rfl
      | none =>
          rw [findAndStore_missing board string found]
          cases nameSeen board delimiter event.data <;> rfl

/-- Of all requests only a POST that asks for memory changes it without a reset. -/
theorem handleRequest_boundary (board : Board) (server : Server) (event : Event) :
    ∃ value, (server.handleRequest board event).1.boundary =
      match event.mallocs with
      | some true => .live value
      | some false => .null
      | none => if event.requestResets board then server.boundary.released else server.boundary := by
  unfold Server.handleRequest Event.mallocs Event.requestResets
  cases get : event.isGet with
  | true =>
      simp only [if_true, Bool.true_eq_false, false_and, if_false, Server.handleGet]
      cases event.nameLength with
      | none => exact ⟨[], reset_boundary server event.conn⟩
      | some length =>
          simp only
          split <;> exact ⟨[], rfl⟩
  | false =>
      cases isPost : event.isPost with
      | false =>
          cases event.isSerial board with
          | true => exact ⟨[], rfl⟩
          | false => exact ⟨[], reset_boundary server event.conn⟩
      | true =>
          simp only [Bool.false_eq_true, if_false, if_true, true_and]
          cases declared : contentLength event with
          | none =>
              refine ⟨[], ?_⟩
              simp only [Server.handlePost, declared]
              exact reset_boundary server event.conn
          | some total =>
              by_cases small : total < 10240
              · refine ⟨[], ?_⟩
                cases parameter : boundaryParameter event with
                | none =>
                    simp only [Server.handlePost, declared, small, decide_true, Bool.true_or,
                      if_true]
                    exact reset_boundary server event.conn
                | some value =>
                    simp only [Server.handlePost, declared, small, decide_true, Bool.true_or,
                      if_true]
                    exact reset_boundary server event.conn
              · cases parameter : boundaryParameter event with
                | none =>
                    refine ⟨[], ?_⟩
                    simp only [Server.handlePost, declared, if_neg small, parameter]
                    simp only [Option.isNone_none, Bool.or_true, Bool.true_or, if_true]
                    exact reset_boundary server event.conn
                | some value =>
                    cases memory : event.memory with
                    | false =>
                        refine ⟨[], ?_⟩
                        simp only [Server.handlePost, declared, if_neg small, parameter, memory,
                          if_true]
                        exact reset_boundary _ event.conn
                    | true =>
                        have opens : Opens event total (text "--" ++ value) :=
                          ⟨declared, Nat.le_of_not_lt small, ⟨value, parameter, rfl⟩, memory⟩
                        refine ⟨text "--" ++ value, ?_⟩
                        rw [handlePost_opens opens]
                        simp only [if_neg small, Server.open]
                        exact findAndStore_boundary board _ event

theorem handleUpload_boundary (board : Board) (server : Server) (event : Event) :
    (server.handleUpload board event).1.boundary =
      if server.uploadResets board event then server.boundary.released else server.boundary := by
  unfold Server.uploadResets
  cases started : server.dataStartFound with
  | false =>
      have kept := findAndStore_boundary board server event
      simp only [Server.handleUpload, started, if_true]
      generalize server.findAndStoreFirstChunk board event = looked at kept
      obtain ⟨found, looked⟩ := looked
      cases found with
      | true => exact kept
      | false => exact (reset_boundary looked event.conn).trans (congrArg _ kept)
  | true =>
      have kept : (server.advance event).boundary = server.boundary := by
        unfold Server.advance
        simp only
        split <;> rfl
      rw [handleUpload_started board started]
      simp only [Bool.true_eq_false, if_false, decide_eq_true_eq]
      split
      · exact (reset_boundary _ event.conn).trans (congrArg _ kept)
      · exact kept

theorem handleAck_boundary (server : Server) (event : Event) :
    (server.handleAck event).1.boundary =
      if (server.conns event.conn).state = .fileRequest ∧
          (server.conns event.conn).upload ≤ event.mss then server.boundary.released
      else server.boundary := by
  by_cases served : (server.conns event.conn).state = .fileRequest
  · by_cases last : (server.conns event.conn).upload ≤ event.mss
    · simp only [Server.handleAck, if_pos served, if_pos last, if_pos (And.intro served last)]
      split <;> exact reset_boundary _ event.conn
    · simp only [Server.handleAck, if_pos served, if_neg last]
      rw [if_neg (fun both => last both.2)]
      rfl
  · simp only [Server.handleAck, if_neg served]
    rw [if_neg (fun both => served both.1)]

/-- Every call, by what it does with the pointer. -/
theorem appcall_boundary (board : Board) (server : Server) (event : Event) :
    ∃ value, (httpdAppcall board server event).1.boundary =
      match server.mallocs event with
      | some true => .live value
      | some false => .null
      | none =>
          if server.resets board event then server.boundary.released else server.boundary := by
  by_cases request : server.handlesRequest event = true
  · have kind : event.closed = false ∧ event.aborted = false ∧ event.timedout = false ∧
        event.poll = false ∧ event.connected = false ∧ event.newdata = true ∧
          (server.conns event.conn).state = .none := by
      simpa [Server.handlesRequest, and_assoc] using request
    obtain ⟨closed, aborted, timedout, poll, connected, newdata, state⟩ := kind
    obtain ⟨value, boundary⟩ := handleRequest_boundary board server event
    refine ⟨value, ?_⟩
    simpa [httpdAppcall, Server.mallocs, Server.resets, request, closed, aborted, timedout, poll,
      connected, newdata, state] using boundary
  · refine ⟨[], ?_⟩
    rw [Server.mallocs, if_neg request]
    cases closed : event.closed with
    | true =>
        simp only [httpdAppcall, Server.resets, closed, if_true]
        exact reset_boundary server event.conn
    | false =>
    cases ended : event.aborted || event.timedout with
    | true =>
        simp only [httpdAppcall, Server.resets, closed, ended, if_true, Bool.false_eq_true, if_false]
        exact reset_boundary server event.conn
    | false =>
    simp only [httpdAppcall, Server.resets, closed, ended, Bool.false_eq_true, if_false]
    cases poll : event.poll with
    | true =>
        simp only [if_true, decide_eq_true_eq]
        split
        · exact reset_boundary _ event.conn
        · rfl
    | false =>
    cases connected : event.connected with
    | true =>
        simp only [Bool.false_eq_true, if_false, if_true]
        exact reset_boundary server event.conn
    | false =>
    have other : (event.newdata && decide ((server.conns event.conn).state = .none)) = false := by
      rw [Bool.or_eq_false_iff] at ended
      simpa [Server.handlesRequest, closed, ended.1, ended.2, poll, connected] using request
    simp only [Bool.false_eq_true, if_false, other]
    by_cases serial : (server.conns event.conn).state = .serialRequest
    · simp only [if_pos serial, if_true]
      exact reset_boundary server event.conn
    simp only [if_neg serial]
    cases acked : event.acked with
    | true =>
        simp only [if_true, Bool.and_eq_true, decide_eq_true_eq]
        exact handleAck_boundary server event
    | false =>
    cases rexmit : event.rexmit with
    | true =>
        simp only [Bool.false_eq_true, if_false, if_true]
        split <;> rfl
    | false =>
    simp only [Bool.false_eq_true, if_false]
    cases upload : event.newdata && decide ((server.conns event.conn).state = .uploadRequest) with
    | true =>
        simp only [if_true]
        exact handleUpload_boundary board server event
    | false => rfl

/-! ## The heap along a run -/

theorem mallocs_resets (taken : server.mallocs event = some true) :
    server.resets board event = false := by
  unfold Server.mallocs at taken
  split at taken
  · rename_i request
    have kind : event.closed = false ∧ event.aborted = false ∧ event.timedout = false ∧
        event.poll = false ∧ event.connected = false ∧ event.newdata = true ∧
          (server.conns event.conn).state = .none := by
      simpa [Server.handlesRequest, and_assoc] using request
    obtain ⟨closed, aborted, timedout, poll, connected, newdata, state⟩ := kind
    have request : server.resets board event = event.requestResets board := by
      simp [Server.resets, closed, aborted, timedout, poll, connected, newdata, state]
    rw [request]
    unfold Event.mallocs at taken
    split at taken
    · rename_i asked
      split at taken
      · rename_i total value declared parameter
        split at taken
        · cases taken
        · rename_i large
          have memory := Option.some.inj taken
          simp [Event.requestResets, asked.1, asked.2, declared, parameter, large, memory]
      · cases taken
    · cases taken
  · cases taken

theorem Matches.free {boundary : Boundary} (same : Matches boundary heap) :
    Matches boundary.released (heap.perform .free) := by
  cases boundary with
  | null =>
      have none : heap.pointer = none := same
      exact none
  | live value =>
      obtain ⟨target, points, -⟩ := same
      exact ⟨target, points, by simp [Heap.perform, points]⟩
  | dangling =>
      obtain ⟨target, points, freed⟩ := same
      exact ⟨target, points, List.mem_append_right _ freed⟩

theorem Matches.read {boundary : Boundary} (same : Matches boundary heap) :
    Matches boundary (heap.perform .read) := by
  cases boundary with
  | null => exact same
  | live value => exact same
  | dangling => exact same

theorem uses_keep (server : Server) (event : Event) : HeapOp.free ∉ server.uses event := by
  unfold Server.uses
  split
  · simp
  · simp
  · split <;> simp

/-- Without a `malloc` the pointer stays. -/
theorem uses_pointer (taken : server.mallocs event = none) :
    (heap.performAll (server.uses event)).pointer = heap.pointer := by
  simp only [Server.uses, taken]
  split <;> rfl

/-- The heap keeps the pointer of the server. -/
theorem Matches.step (same : Matches server.boundary heap) (bounded : heap.Bounded) :
    Matches (httpdAppcall board server event).1.boundary
      (heap.performAll (heapOps board server event)) := by
  obtain ⟨value, boundary⟩ := appcall_boundary board server event
  rw [boundary, heapOps, Heap.performAll_append]
  cases taken : server.mallocs event with
  | some room =>
      cases room with
      | true =>
          simp only [Server.uses, taken, mallocs_resets taken]
          refine ⟨heap.allocated, rfl, ?_⟩
          intro freed
          exact Nat.lt_irrefl _ (bounded.1 _ freed)
      | false =>
          simp only [Server.uses, taken]
          cases server.resets board event <;> rfl
  | none =>
      have looked : Matches server.boundary (heap.performAll (server.uses event)) := by
        simp only [Server.uses, taken]
        split
        · exact same.read
        · exact same
      simp only
      split
      · exact looked.free
      · exact looked

/-- A call that frees the string of an upload. -/
def Releases (board : Board) (server : Server) (event : Event) : Prop :=
  server.resets board event = true ∧ server.boundary ≠ .null ∧ server.mallocs event ≠ some false

theorem owned_step (owned : heap.Owned) (bounded : heap.Bounded)
    (same : Matches server.boundary heap) (kept : ¬ Releases board server event) :
    (heap.performAll (heapOps board server event)).Owned := by
  have used := owned.performAll bounded (uses_keep server event)
  rw [heapOps, Heap.performAll_append]
  split
  · rename_i resets
    change ((heap.performAll (server.uses event)).perform .free).Owned
    refine used.perform (bounded.performAll _) (fun _ => ?_)
    cases taken : server.mallocs event with
    | some room =>
        cases room with
        | true =>
            rw [mallocs_resets taken] at resets
            cases resets
        | false =>
            simp only [Server.uses, taken]
            rfl
    | none =>
        rw [uses_pointer taken, same.pointer_none_iff]
        by_contra set
        exact kept ⟨resets, set, by simp [taken]⟩
  · exact used

theorem not_owned_of_releases (same : Matches server.boundary heap)
    (releases : Releases board server event) :
    ¬ (heap.performAll (heapOps board server event)).Owned := by
  obtain ⟨resets, set, notExhausted⟩ := releases
  have taken : server.mallocs event = none := by
    cases taken : server.mallocs event with
    | none => rfl
    | some room =>
        cases room with
        | true =>
            rw [mallocs_resets taken] at resets
            cases resets
        | false => exact absurd taken notExhausted
  have points : heap.pointer ≠ none := fun none => set (same.pointer_none_iff.mp none)
  obtain ⟨target, points⟩ := Option.ne_none_iff_exists'.mp points
  rw [heapOps, if_pos resets, Heap.performAll_append]
  exact Heap.not_owned_free ((uses_pointer taken).trans points)

/-! ## Every run -/

/-- What holds of the heap in every run, whatever is freed. -/
theorem watched_keeps (board : Board) (start : Server) (events : List Event)
    (empty : start.boundary = .null) :
    (watched board start .empty events).2.Bounded ∧
      Matches (watched board start .empty events).1.boundary
        (watched board start .empty events).2 := by
  induction events using List.reverseRecOn with
  | nil =>
      refine ⟨Heap.empty_bounded, ?_⟩
      change Matches start.boundary .empty
      rw [empty]
      rfl
  | append_singleton events event ih =>
      obtain ⟨bounded, same⟩ := ih
      rw [watched, List.foldl_append]
      exact ⟨bounded.performAll _, same.step bounded⟩

theorem watched_concat (board : Board) (start : Server) (heap : Heap) (events : List Event)
    (event : Event) : watched board start heap (events ++ [event]) =
      ((httpdAppcall board (watched board start heap events).1 event).1,
        (watched board start heap events).2.performAll
          (heapOps board (watched board start heap events).1 event)) := by
  rw [watched, List.foldl_append]
  rfl

/-- The boundary string is owned in every state of a run exactly if no call of the run frees
it: a pointer that was freed is never cleared. -/
theorem boundary_owned_iff (board : Board) (ram : Memory UInt8) (dataPointer size : Nat)
    (events : List Event) :
    (∀ earlier, earlier <+: events →
        (watched board (booted ram dataPointer size) .empty earlier).2.Owned) ↔
      ∀ earlier event, earlier ++ [event] <+: events →
        ¬ Releases board (watched board (booted ram dataPointer size) .empty earlier).1 event := by
  constructor
  · intro owned earlier event inFront releases
    obtain ⟨-, same⟩ := watched_keeps board (booted ram dataPointer size) earlier rfl
    have after := owned (earlier ++ [event]) inFront
    rw [watched_concat] at after
    exact not_owned_of_releases same releases after
  · intro kept earlier
    induction earlier using List.reverseRecOn with
    | nil => exact fun _ => Heap.empty_owned
    | append_singleton earlier event ih =>
        intro inFront
        obtain ⟨bounded, same⟩ :=
          watched_keeps board (booted ram dataPointer size) earlier rfl
        rw [watched_concat]
        exact owned_step (ih ((List.prefix_append _ _).trans inFront)) bounded same
          (kept earlier event inFront)

/-- A POST opens, its client gives up, and the next connection frees the string again. -/
theorem abandonedUpload_freesTwice :
    ¬ (watched sampleBoard (booted (fun _ => 0) 0 0) .empty
      [opening, sampleFirst true .firmware, giveUp, opening]).2.Owned := by
  intro owned
  have frees : (watched sampleBoard (booted (fun _ => 0) 0 0) .empty
      [opening, sampleFirst true .firmware, giveUp, opening]).2.frees = [0, 0] := by
    decide +kernel
  have once := owned.once
  rw [frees] at once
  simp at once

end Rut9xx.Httpd
