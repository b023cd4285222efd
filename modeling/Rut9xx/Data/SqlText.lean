import Rut9xx.Data.HexText

namespace Rut9xx.Data

/-! # What a text of SQL says, as far as its string literals -/

def quote : UInt8 := 0x27
def semicolon : UInt8 := 0x3b
def hyphen : UInt8 := 0x2d

/-- A string literal with the text it denotes, or a byte outside of any. -/
inductive SqlToken where
  | byte (byte : UInt8)
  | literal (text : List UInt8)
  deriving DecidableEq

/-- A name in double quotes, backticks or brackets begins here, or a comment. -/
def opensOther (byte : UInt8) (next : Option UInt8) : Bool :=
  byte = 0x22 ∨ byte = 0x60 ∨ byte = 0x5b ∨ (byte = hyphen ∧ next = some hyphen) ∨
    (byte = 0x2f ∧ next = some 0x2a)

/-- Reads from inside a literal, with what it denotes so far, or from outside. In a literal two quotes
are one. None is for a literal without an end, a quoted name or a comment. -/
def readSql : Option (List UInt8) → List UInt8 → Option (List SqlToken)
  | none, [] => some []
  | none, byte :: rest =>
      if byte = quote then readSql (some []) rest
      else if opensOther byte rest.head? then none
      else (readSql none rest).map (.byte byte :: ·)
  | some _, [] => none
  | some text, [byte] => if byte = quote then some [.literal text] else none
  | some text, byte :: next :: rest =>
      if byte = quote then
        if next = quote then readSql (some (text ++ [quote])) rest
        else (readSql none (next :: rest)).map (.literal text :: ·)
      else readSql (some (text ++ [byte])) (next :: rest)

def digitByte (byte : UInt8) : Bool := 0x30 ≤ byte ∧ byte ≤ 0x39

/-- Text that is read byte by byte whatever follows, inside of one statement. -/
def plain : List UInt8 → Bool
  | [] => true
  | byte :: rest =>
      byte ≠ quote ∧ byte ≠ semicolon ∧ byte ≠ 0x22 ∧ byte ≠ 0x60 ∧ byte ≠ 0x5b ∧ byte ≠ 0x2f ∧
        (byte = hyphen → rest.head?.any digitByte) ∧ plain rest

/-- A statement with its literals between plain text, up to the semicolon. -/
structure SqlForm where
  parts : List (List UInt8 × List UInt8)
  last : List UInt8
  plainParts : ∀ part ∈ parts, plain part.1 ∧ part.1 ≠ []
  plainLast : plain last

def renderParts (parts : List (List UInt8 × List UInt8)) : List UInt8 :=
  parts.flatMap fun (text, literal) => text ++ quote :: literal ++ [quote]

def partsTokens (parts : List (List UInt8 × List UInt8)) : List SqlToken :=
  parts.flatMap fun (text, literal) => text.map .byte ++ [.literal literal]

/-- The text with each literal put between quotes as it is. -/
def SqlForm.render (form : SqlForm) : List UInt8 :=
  renderParts form.parts ++ (form.last ++ [semicolon])

def SqlForm.tokens (form : SqlForm) : List SqlToken :=
  partsTokens form.parts ++ (form.last ++ [semicolon]).map .byte

variable {text read value rest after lit : List UInt8} {token : SqlToken} {tokens : List SqlToken}
  {parts : List (List UInt8 × List UInt8)} {form : SqlForm} {byte : UInt8}

/-! ## Plain text -/

theorem plain_append (first : plain text) (second : plain rest) : plain (text ++ rest) := by
  induction text with
  | nil => exact second
  | cons byte text ih =>
      simp only [plain, decide_eq_true_eq] at first
      obtain ⟨noQuote, noEnd, double, back, bracket, slash, negative, further⟩ := first
      simp only [List.cons_append, plain, decide_eq_true_eq]
      refine ⟨noQuote, noEnd, double, back, bracket, slash, ?_, ih further⟩
      intro minus
      cases text with
      | nil => exact absurd (negative minus) (by simp)
      | cons next text => exact negative minus

theorem plain_mem (simple : plain text) (member : byte ∈ text) : byte ≠ quote ∧ byte ≠ semicolon := by
  induction text with
  | nil => cases member
  | cons first text ih =>
      simp only [plain, decide_eq_true_eq] at simple
      obtain ⟨noQuote, noEnd, -, -, -, -, -, further⟩ := simple
      rcases List.mem_cons.mp member with rfl | later
      · exact ⟨noQuote, noEnd⟩
      · exact ih further later

theorem readSql_plain (simple : plain text) :
    readSql none (text ++ rest) = (readSql none rest).map (text.map .byte ++ ·) := by
  induction text with
  | nil => simp
  | cons byte text ih =>
      simp only [plain, decide_eq_true_eq] at simple
      obtain ⟨noQuote, -, double, back, bracket, slash, negative, further⟩ := simple
      have closed : opensOther byte (text ++ rest).head? = false := by
        have single (minus : byte = hyphen) : (text ++ rest).head? ≠ some hyphen := by
          cases text with
          | nil => exact absurd (negative minus) (by simp)
          | cons next text =>
              intro same
              have digit : digitByte next := negative minus
              rw [Option.some_inj.mp same] at digit
              exact absurd digit (by decide)
        simp only [opensOther, double, back, bracket, slash, false_and, false_or, or_false,
          decide_eq_false_iff_not]
        intro comment
        exact single comment.1 comment.2
      rw [List.cons_append, readSql, if_neg noQuote, closed, if_neg Bool.false_ne_true, ih further]
      cases readSql none rest <;> rfl

/-! ## Literals -/

theorem readSql_literal (noQuote : quote ∉ lit) (next : rest.head? ≠ some quote) :
    readSql (some read) (lit ++ quote :: rest) =
      (readSql none rest).map (.literal (read ++ lit) :: ·) := by
  induction lit generalizing read with
  | nil =>
      cases rest with
      | nil => simp [readSql]
      | cons byte rest =>
          have other : byte ≠ quote := fun same => next (same ▸ rfl)
          simp [readSql, other]
  | cons byte lit ih =>
      have other : byte ≠ quote := fun same => noQuote (same ▸ List.mem_cons_self)
      have further : quote ∉ lit := fun member => noQuote (List.mem_cons_of_mem _ member)
      have through := @ih (read ++ [byte]) further
      rw [List.append_assoc, List.singleton_append] at through
      cases lit with
      | nil => simpa [readSql, other] using through
      | cons second lit => simpa [readSql, other] using through

/-- A literal as it has to be written. -/
def escape (value : List UInt8) : List UInt8 :=
  value.flatMap fun byte => if byte = quote then [quote, quote] else [byte]

/-- What is read as a literal is written with its quotes doubled. -/
theorem readSql_escaped (said : readSql (some read) text = some (token :: tokens)) :
    ∃ value after, token = .literal (read ++ value) ∧ text = escape value ++ quote :: after ∧
      after.head? ≠ some quote ∧ readSql none after = some tokens := by
  induction text using List.twoStepInduction generalizing read with
  | nil => cases said
  | singleton byte =>
      rw [readSql] at said
      split at said
      · rename_i ended
        cases said
        exact ⟨[], [], by simp, by simp [escape, ended], by simp, rfl⟩
      · cases said
  | cons_cons byte next rest ih further =>
      rw [readSql] at said
      split at said
      · rename_i quoted
        subst quoted
        split at said
        · rename_i pair
          subst pair
          obtain ⟨value, after, rfl, rfl, head, tail⟩ := ih said
          exact ⟨quote :: value, after, by simp, by simp [escape], head, tail⟩
        · rename_i ended
          obtain ⟨tail, found, same⟩ := Option.map_eq_some_iff.mp said
          cases same
          exact ⟨[], next :: rest, by simp, by simp [escape], by simpa using ended, found⟩
      · rename_i other
        obtain ⟨value, after, rfl, written, head, tail⟩ := further next said
        refine ⟨byte :: value, after, by simp, ?_, head, tail⟩
        rw [written]
        simp [escape, other]

/-- A quote of the text cannot be taken for one of a pair. -/
theorem escape_ne {quotes : Nat} (some' : 0 < quotes) (next : rest.head? ≠ some quote) :
    List.replicate quotes quote ++ (escape lit ++ quote :: after) ≠ lit ++ quote :: rest := by
  induction lit generalizing quotes with
  | nil =>
      intro same
      obtain ⟨more, rfl⟩ : ∃ more, quotes = more + 1 := ⟨quotes - 1, by omega⟩
      cases more with
      | zero =>
          simp [escape] at same
          exact next (same ▸ rfl)
      | succ more =>
          simp [escape, List.replicate_succ] at same
          exact next (same ▸ rfl)
  | cons byte lit ih =>
      intro same
      obtain ⟨more, rfl⟩ : ∃ more, quotes = more + 1 := ⟨quotes - 1, by omega⟩
      rw [List.replicate_succ, List.cons_append, List.cons_append] at same
      obtain ⟨rfl, rest'⟩ := List.cons.inj same
      have pair : escape (quote :: lit) = quote :: quote :: escape lit := by simp [escape]
      apply @ih (more + 2) (by omega)
      rw [← rest', pair]
      simp [List.replicate_add]

theorem escape_eq (next : rest.head? ≠ some quote)
    (same : escape lit ++ quote :: after = lit ++ quote :: rest) : quote ∉ lit := by
  induction lit with
  | nil => simp
  | cons byte lit ih =>
      by_cases quoted : byte = quote
      · subst quoted
        have pair : escape (quote :: lit) = quote :: quote :: escape lit := by simp [escape]
        rw [pair, List.cons_append, List.cons_append, List.cons_append] at same
        have after' := (List.cons.inj same).2
        exact absurd after' (@escape_ne rest after lit 1 Nat.one_pos next)
      · have alone : escape (byte :: lit) = byte :: escape lit := by simp [escape, quoted]
        rw [alone, List.cons_append, List.cons_append] at same
        have further := ih (List.cons.inj same).2
        simp only [List.mem_cons, not_or]
        exact ⟨fun here => quoted here.symm, further⟩

/-! ## Statements -/

/-- The text says the form's literals between its plain text, and ends with the one statement. -/
structure ReadsAs (sql : List UInt8) (form : SqlForm) : Prop where
  reads : readSql none sql = some form.tokens
  single : ∃ body, form.tokens = body ++ [.byte semicolon] ∧ .byte semicolon ∉ body

theorem form_single (form : SqlForm) :
    ∃ body, form.tokens = body ++ [.byte semicolon] ∧ .byte semicolon ∉ body := by
  refine ⟨partsTokens form.parts ++ form.last.map .byte, by simp [SqlForm.tokens], ?_⟩
  intro member
  rcases List.mem_append.mp member with inside | inLast
  · obtain ⟨part, isPart, inPart⟩ := List.mem_flatMap.mp inside
    have fixed := (form.plainParts part isPart).1
    simp only [List.mem_append, List.mem_map, SqlToken.byte.injEq, exists_eq_right,
      List.mem_singleton, reduceCtorEq, or_false] at inPart
    exact (plain_mem fixed inPart).2 rfl
  · simp only [List.mem_map, SqlToken.byte.injEq, exists_eq_right] at inLast
    exact (plain_mem form.plainLast inLast).2 rfl

theorem render_head (plainParts : ∀ part ∈ parts, plain part.1 ∧ part.1 ≠ []) (plainLast : plain text) :
    (renderParts parts ++ (text ++ [semicolon])).head? ≠ some quote := by
  cases parts with
  | nil =>
      cases text with
      | nil => decide
      | cons byte text =>
          intro same
          exact (plain_mem plainLast List.mem_cons_self).1 (Option.some_inj.mp same)
  | cons part rest =>
      obtain ⟨fixed, nonempty⟩ := plainParts part List.mem_cons_self
      obtain ⟨first, literal⟩ := part
      cases first with
      | nil => exact absurd rfl nonempty
      | cons byte first =>
          intro same
          exact (plain_mem fixed List.mem_cons_self).1 (Option.some_inj.mp same)

theorem readSql_last (plainLast : plain text) :
    readSql none (text ++ [semicolon]) = some ((text ++ [semicolon]).map .byte) := by
  have ended : readSql none [semicolon] = some [.byte semicolon] := by decide
  rw [readSql_plain plainLast, ended, List.map_append]
  rfl

theorem readSql_render (plainParts : ∀ part ∈ parts, plain part.1 ∧ part.1 ≠ [])
    (plainLast : plain text) :
    readSql none (renderParts parts ++ (text ++ [semicolon])) =
        some (partsTokens parts ++ (text ++ [semicolon]).map .byte) ↔
      ∀ part ∈ parts, quote ∉ part.2 := by
  induction parts with
  | nil => simpa [renderParts, partsTokens] using readSql_last plainLast
  | cons part rest ih =>
      obtain ⟨first, literal⟩ := part
      have fixed : plain first := (plainParts _ List.mem_cons_self).1
      have others : ∀ part ∈ rest, plain part.1 ∧ part.1 ≠ [] :=
        fun part member => plainParts part (List.mem_cons_of_mem _ member)
      have head := render_head others plainLast
      have further := ih others
      have rendered : renderParts ((first, literal) :: rest) ++ (text ++ [semicolon]) =
          first ++ quote :: (literal ++ quote :: (renderParts rest ++ (text ++ [semicolon]))) := by
        simp [renderParts]
      have said : partsTokens ((first, literal) :: rest) ++ (text ++ [semicolon]).map .byte =
          first.map .byte ++ .literal literal ::
            (partsTokens rest ++ (text ++ [semicolon]).map .byte) := by
        simp [partsTokens]
      have opened : readSql none (quote :: (literal ++ quote ::
          (renderParts rest ++ (text ++ [semicolon])))) =
          readSql (some []) (literal ++ quote :: (renderParts rest ++ (text ++ [semicolon]))) := by
        rw [readSql, if_pos rfl]
      rw [rendered, said, readSql_plain fixed, opened]
      simp only [List.mem_cons, forall_eq_or_imp]
      constructor
      · intro same
        obtain ⟨tokens, found, joined⟩ := Option.map_eq_some_iff.mp same
        have tail := List.append_cancel_left joined
        subst tail
        obtain ⟨value, after, same', written, next, _⟩ := readSql_escaped found
        rw [List.nil_append, SqlToken.literal.injEq] at same'
        subst same'
        have noQuote := escape_eq head written.symm
        rw [readSql_literal noQuote head] at found
        obtain ⟨tokens, found, joined⟩ := Option.map_eq_some_iff.mp found
        rw [← (List.cons.inj joined).2] at further
        exact ⟨noQuote, further.mp found⟩
      · intro ⟨noQuote, rest'⟩
        rw [readSql_literal noQuote head, further.mpr rest']
        rfl

/-- Text pasted between the quotes is what the literals denote exactly when no quote is in it. -/
theorem readsAs_render_iff : ReadsAs form.render form ↔ ∀ part ∈ form.parts, quote ∉ part.2 := by
  constructor
  · intro reads
    exact (readSql_render form.plainParts form.plainLast).mp reads.reads
  · intro noQuote
    exact ⟨(readSql_render form.plainParts form.plainLast).mpr noQuote, form_single form⟩

end Rut9xx.Data
