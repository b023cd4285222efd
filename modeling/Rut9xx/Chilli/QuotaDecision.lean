import Rut9xx.Chilli.DhcpConn
import Rut9xx.Chilli.SessionSql
import Mathlib.Tactic.NormNum

namespace Rut9xx.Chilli

/-! # The quota of a user (`database.c`)

The database is what it answers to a query; `atoi` is what it gives for a number's decimal text. -/

/-- A sum over integers: none over no rows. -/
abbrev SqlSum := Option (Fin 9223372036854775808)

structure SumRow where
  inputPackets : SqlSum
  outputPackets : SqlSum
  inputOctets : SqlSum
  outputOctets : SqlSum
  sessiontime : SqlSum

inductive QueryOutcome where
  | error
  | row (sums : SumRow)

structure DbSessionState where
  inputOctets : UInt64
  outputOctets : UInt64
  inputPackets : UInt64
  outputPackets : UInt64
  sessiontime : UInt32

/-- Of the session's parameters. -/
structure QuotaParams where
  maxinputoctets : UInt64
  maxoutputoctets : UInt64
  sessiontimeout : UInt64
  period : Int
  start : Int

inductive Access where
  | denied
  | accepted
  | deniedData
  | deniedTime
  deriving DecidableEq

def SqlSum.value (sum : SqlSum) : Nat := sum.elim 0 Fin.val

/-- `argv[i] ? atoll(argv[i]) : 0` -/
def SqlSum.counter (sum : SqlSum) : UInt64 := UInt64.ofNat sum.value

section Program

variable (atoi : Nat → Int32)

/-- `_seletc_callback`; the row has all five sums. -/
def selectCallback (sums : SumRow) : DbSessionState where
  inputPackets := sums.inputPackets.counter
  outputPackets := sums.outputPackets.counter
  inputOctets := sums.inputOctets.counter
  outputOctets := sums.outputOctets.counter
  sessiontime := sums.sessiontime.elim 0 fun sum => (atoi sum).toUInt32

/-- The flag says that the query failed; then nothing was written to `db_state`. -/
def dbsessionData (exec : List UInt8 → QueryOutcome) (gmtoff timestampNow : Int) (params : QuotaParams)
    (username : List UInt8) (dbState : DbSessionState) : Bool × DbSessionState :=
  match exec (dbsessionSql gmtoff params.period params.start timestampNow username) with
  | .error => (true, dbState)
  | .row sums => (false, selectCallback atoi sums)

/-- The value as a `uint32_t`. -/
def asUnsigned (value : Int) : UInt32 := UInt32.ofNat (value % 4294967296).toNat

def mainclockDiffu (now past : Int) : UInt32 :=
  if mainclockDiff now past > 0 then asUnsigned (mainclockDiff now past) else 0

/-- `now` is the clock that sessions are timed by; `dbState` is the structure on the stack as it is
found. -/
def dbcheckSession (exec : List UInt8 → QueryOutcome) (gmtoff timestampNow now : Int)
    (params : QuotaParams) (username : List UInt8) (dbState : DbSessionState) : Access :=
  if username = [] then .denied
  else
    let dbState := (dbsessionData atoi exec gmtoff timestampNow params username dbState).2
    if params.maxinputoctets ≠ 0 ∧ params.maxinputoctets < dbState.inputOctets then .deniedData
    else if params.maxoutputoctets ≠ 0 ∧ params.maxoutputoctets < dbState.outputOctets then .deniedData
    else if params.sessiontimeout ≠ 0 then
      let startTime := asUnsigned (now - dbState.sessiontime.toNat)
      let sessiontime := mainclockDiffu now startTime.toNat
      if params.sessiontimeout < sessiontime.toUInt64 then .deniedTime else .accepted
    else .accepted

end Program

/-! ## What decides -/

/-- A limit that is set and passed. -/
def Passed (limit : UInt64) (used : Nat) : Prop := limit ≠ 0 ∧ limit.toNat < used

variable {atoi : Nat → Int32} {exec : List UInt8 → QueryOutcome} {gmtoff timestampNow now : Int}
  {params : QuotaParams} {username : List UInt8} {dbState : DbSessionState} {sums : SumRow}

/-- The session time that the clock measures: none from half of its range on. -/
def timed (sessiontime : UInt32) : Nat :=
  if sessiontime.toNat < 2147483648 then sessiontime.toNat else 0

theorem mainclockDiffu_timed (now : Int) (sessiontime : UInt32) :
    (mainclockDiffu now (asUnsigned (now - sessiontime.toNat)).toNat).toNat = timed sessiontime := by
  have small := sessiontime.toNat_lt
  have start : ((asUnsigned (now - sessiontime.toNat)).toNat : Int) =
      (now - sessiontime.toNat) % 4294967296 := by
    rw [asUnsigned, UInt32.toNat_ofNat']
    omega
  have diff : mainclockDiff now (asUnsigned (now - sessiontime.toNat)).toNat =
      if sessiontime.toNat < 2147483648 then (sessiontime.toNat : Int)
      else (sessiontime.toNat : Int) - 4294967296 := by
    have range : ((2 ^ 32 : Nat) : Int) = 4294967296 := by norm_num
    rw [mainclockDiff, start, Int.bmod_def, range]
    split <;> split <;> omega
  unfold mainclockDiffu timed
  rw [diff]
  by_cases measured : sessiontime.toNat < 2147483648
  · rw [if_pos measured, if_pos measured]
    by_cases some' : (sessiontime.toNat : Int) > 0
    · rw [if_pos some', asUnsigned, UInt32.toNat_ofNat']
      omega
    · rw [if_neg some']
      have none' : sessiontime.toNat = 0 := by omega
      rw [none']
      rfl
  · rw [if_neg measured, if_neg measured, if_neg (by omega)]
    rfl

theorem not_passed_iff {limit : UInt64} {used : Nat} :
    ¬ Passed limit used ↔ limit = 0 ∨ used ≤ limit.toNat := by
  rw [Passed, not_and_or, not_not, Nat.not_lt]

theorem passed_zero {limit : UInt64} : ¬ Passed limit 0 := fun passed => Nat.not_lt_zero _ passed.2

/-- The user is let in as long as no limit is passed by what is found in `db_state`. -/
theorem dbcheckSession_accepted_iff (named : username ≠ []) {found : DbSessionState}
    (data : (dbsessionData atoi exec gmtoff timestampNow params username dbState).2 = found) :
    dbcheckSession atoi exec gmtoff timestampNow now params username dbState = .accepted ↔
      ¬ Passed params.maxinputoctets found.inputOctets.toNat ∧
        ¬ Passed params.maxoutputoctets found.outputOctets.toNat ∧
        ¬ Passed params.sessiontimeout (timed found.sessiontime) := by
  have time := mainclockDiffu_timed now found.sessiontime
  rw [← UInt32.toNat_toUInt64] at time
  simp only [dbcheckSession, if_neg named, data, Passed, ← time, UInt64.lt_iff_toNat_lt]
  split_ifs <;> simp_all

/-! ## The sums of a row -/

/-- The session time as `atoi` reads it, none if it comes out negative. -/
def readTime (atoi : Nat → Int32) (sums : SumRow) : Nat :=
  sums.sessiontime.elim 0 fun sum => (atoi sum).toInt.toNat

theorem counter_value (sum : SqlSum) : sum.counter.toNat = sum.value := by
  have small : sum.value < 18446744073709551616 := by
    cases sum with
    | none => decide
    | some sum => exact Nat.lt_trans sum.isLt (by decide)
  rw [SqlSum.counter, UInt64.toNat_ofNat']
  exact Nat.mod_eq_of_lt small

theorem timed_toUInt32 (value : Int32) : timed value.toUInt32 = value.toInt.toNat := by
  have bits : value.toUInt32.toNat = value.toBitVec.toNat := rfl
  have small := value.toBitVec.isLt
  rw [timed, bits, ← Int32.toInt_toBitVec, BitVec.toInt_eq_toNat_cond]
  split <;> split <;> omega

theorem timed_callback : timed (selectCallback atoi sums).sessiontime = readTime atoi sums := by
  unfold selectCallback readTime
  cases sums.sessiontime with
  | none => rfl
  | some sum => exact timed_toUInt32 (atoi sum)

theorem readTime_le (documented : ∀ value < 2147483648, (atoi value).toInt = value) :
    readTime atoi sums ≤ sums.sessiontime.value := by
  unfold readTime SqlSum.value
  cases sums.sessiontime with
  | none => exact Nat.le_refl _
  | some sum =>
      have most := (atoi sum).toInt_lt
      have exact' := documented sum
      simp only [Option.elim_some]
      by_cases small : (sum : Nat) < 2147483648
      · rw [exact' small]
        simp
      · omega

/-- What the claimed use of the limits is, over a row. -/
def Exceeded (params : QuotaParams) (sums : SumRow) : Prop :=
  Passed params.maxinputoctets sums.inputOctets.value ∨
    Passed params.maxoutputoctets sums.outputOctets.value ∨
    Passed params.sessiontimeout sums.sessiontime.value

/-- A session time limit that is passed alone is also passed by what `atoi` reads. -/
def TimeRead (atoi : Nat → Int32) (params : QuotaParams) (sums : SumRow) : Prop :=
  Passed params.maxinputoctets sums.inputOctets.value ∨
    Passed params.maxoutputoctets sums.outputOctets.value ∨
    (Passed params.sessiontimeout sums.sessiontime.value →
      Passed params.sessiontimeout (readTime atoi sums))

/-- No contents of `db_state` pass a limit. -/
structure Unpassable (params : QuotaParams) : Prop where
  input : params.maxinputoctets = 0 ∨ params.maxinputoctets.toNat = 18446744073709551615
  output : params.maxoutputoctets = 0 ∨ params.maxoutputoctets.toNat = 18446744073709551615
  time : params.sessiontimeout = 0 ∨ 2147483647 ≤ params.sessiontimeout.toNat

/-- `db_state` with the given counters. -/
def stack (inputOctets outputOctets : UInt64) (sessiontime : UInt32) : DbSessionState :=
  ⟨inputOctets, outputOctets, 0, 0, sessiontime⟩

theorem row_decided_iff (documented : ∀ value < 2147483648, (atoi value).toInt = value)
    (named : username ≠ [])
    (answer : exec (dbsessionSql gmtoff params.period params.start timestampNow username) = .row sums) :
    (∀ dbState, dbcheckSession atoi exec gmtoff timestampNow now params username dbState ≠ .accepted ↔
      Exceeded params sums) ↔ TimeRead atoi params sums := by
  have less := @readTime_le atoi sums documented
  have shorter (passed : Passed params.sessiontimeout (readTime atoi sums)) :
      Passed params.sessiontimeout sums.sessiontime.value := ⟨passed.1, Nat.lt_of_lt_of_le passed.2 less⟩
  have decided (dbState : DbSessionState) :
      dbcheckSession atoi exec gmtoff timestampNow now params username dbState = .accepted ↔
        ¬ Passed params.maxinputoctets sums.inputOctets.value ∧
          ¬ Passed params.maxoutputoctets sums.outputOctets.value ∧
          ¬ Passed params.sessiontimeout (readTime atoi sums) := by
    have data : (dbsessionData atoi exec gmtoff timestampNow params username dbState).2 =
        selectCallback atoi sums := by simp [dbsessionData, answer]
    rw [dbcheckSession_accepted_iff named data, timed_callback]
    simp only [selectCallback, counter_value]
  simp only [ne_eq, decided, Exceeded, TimeRead]
  constructor
  · intro same
    by_cases input : Passed params.maxinputoctets sums.inputOctets.value
    · exact .inl input
    · by_cases output : Passed params.maxoutputoctets sums.outputOctets.value
      · exact .inr (.inl output)
      · refine .inr (.inr fun time => ?_)
        have turnedDown := (same (stack 0 0 0)).mpr (.inr (.inr time))
        simpa [input, output] using turnedDown
  · intro read dbState
    constructor
    · intro turnedDown
      by_contra none'
      simp only [not_or] at none'
      exact turnedDown ⟨none'.1, none'.2.1, fun passed => none'.2.2 (shorter passed)⟩
    · intro some' all
      rcases read with input | output | time
      · exact all.1 input
      · exact all.2.1 output
      · rcases some' with input | output | passed
        · exact all.1 input
        · exact all.2.1 output
        · exact all.2.2 (time passed)

theorem error_decided_iff (named : username ≠ [])
    (answer : exec (dbsessionSql gmtoff params.period params.start timestampNow username) = .error) :
    (∀ dbState dbState', dbcheckSession atoi exec gmtoff timestampNow now params username dbState =
        dbcheckSession atoi exec gmtoff timestampNow now params username dbState') ↔
      Unpassable params := by
  have decided (dbState : DbSessionState) :
      dbcheckSession atoi exec gmtoff timestampNow now params username dbState = .accepted ↔
        ¬ Passed params.maxinputoctets dbState.inputOctets.toNat ∧
          ¬ Passed params.maxoutputoctets dbState.outputOctets.toNat ∧
          ¬ Passed params.sessiontimeout (timed dbState.sessiontime) := by
    have data : (dbsessionData atoi exec gmtoff timestampNow params username dbState).2 = dbState := by
      simp [dbsessionData, answer]
    exact dbcheckSession_accepted_iff named data
  constructor
  · intro same
    have empty := (decided (stack 0 0 0)).mpr ⟨passed_zero, passed_zero, passed_zero⟩
    have every (dbState : DbSessionState) :=
      (decided dbState).mp ((same dbState (stack 0 0 0)).trans empty)
    have input := not_passed_iff.mp (every (stack 18446744073709551615 0 0)).1
    have output := not_passed_iff.mp (every (stack 0 18446744073709551615 0)).2.1
    have time := not_passed_iff.mp (every (stack 0 0 2147483647)).2.2
    have most (limit : UInt64) (whole : 18446744073709551615 ≤ limit.toNat) :
        limit.toNat = 18446744073709551615 := by
      have below := limit.toNat_lt
      omega
    exact ⟨input.imp_right (most _), output.imp_right (most _), time⟩
  · intro unpassable dbState dbState'
    have accepted (dbState : DbSessionState) :
        dbcheckSession atoi exec gmtoff timestampNow now params username dbState = .accepted := by
      have most {limit : UInt64} (counter : UInt64) (whole : limit.toNat = 18446744073709551615) :
          counter.toNat ≤ limit.toNat := by
        have below := counter.toNat_lt
        omega
      have clock : timed dbState.sessiontime ≤ 2147483647 := by
        unfold timed
        split <;> omega
      simp only [decided, not_passed_iff]
      exact ⟨unpassable.input.imp_right (most _), unpassable.output.imp_right (most _),
        unpassable.time.imp_right (Nat.le_trans clock)⟩
    rw [accepted, accepted]

/-- When the decision is made from the sums, or from nothing that matters. -/
def Settled (atoi : Nat → Int32) (params : QuotaParams) : QueryOutcome → Prop
  | .error => Unpassable params
  | .row sums => TimeRead atoi params sums

/-- A row decides by its sums, and without one what was on the stack does not decide, exactly when
the time is read as it is summed, or no limit can be passed. -/
theorem dbcheckSession_decides_iff (atoi : Nat → Int32) (exec : List UInt8 → QueryOutcome)
    (gmtoff timestampNow now : Int) (params : QuotaParams) {username : List UInt8}
    (documented : ∀ value < 2147483648, (atoi value).toInt = value) (named : username ≠ []) :
    ((∀ sums, exec (dbsessionSql gmtoff params.period params.start timestampNow username) = .row sums →
        ∀ dbState, dbcheckSession atoi exec gmtoff timestampNow now params username dbState ≠ .accepted ↔
          Exceeded params sums) ∧
      (exec (dbsessionSql gmtoff params.period params.start timestampNow username) = .error →
        ∀ dbState dbState', dbcheckSession atoi exec gmtoff timestampNow now params username dbState =
          dbcheckSession atoi exec gmtoff timestampNow now params username dbState')) ↔
      Settled atoi params (exec (dbsessionSql gmtoff params.period params.start timestampNow username)) := by
  cases answer : exec (dbsessionSql gmtoff params.period params.start timestampNow username) with
  | error =>
      simp only [reduceCtorEq, false_implies, implies_true, true_and, true_implies]
      exact error_decided_iff named answer
  | row sums =>
      simp only [QueryOutcome.row.injEq, forall_eq', reduceCtorEq, false_implies, and_true]
      exact row_decided_iff documented named answer

/-! ## A limit of a megabyte and a database that is locked -/

def megabyte : QuotaParams := ⟨1000000, 0, 0, periodDay, 0⟩

/-- Octets used, and session time, as sums over some rows. -/
def usedRow (octets : Fin 9223372036854775808) : SumRow := ⟨none, none, some octets, none, some 60⟩

/-- A database that answers every query alike. -/
def answering (outcome : QueryOutcome) : List UInt8 → QueryOutcome := fun _ => outcome

theorem dbcheckSession_decides_megabyte :
    dbcheckSession Int32.ofNat (answering (.row (usedRow 1000001))) 0 0 0 megabyte [0x61]
        (stack 0 0 0) ≠ .accepted ↔
      Exceeded megabyte (usedRow 1000001) := by
  have documented : ∀ value < 2147483648, (Int32.ofNat value).toInt = value :=
    fun value small => Int32.toInt_ofNat_of_lt small
  have named : ([0x61] : List UInt8) ≠ [] := by decide
  have decides := dbcheckSession_decides_iff Int32.ofNat (answering (.row (usedRow 1000001))) 0 0 0
    megabyte documented named
  have settled : Settled Int32.ofNat megabyte (.row (usedRow 1000001)) :=
    .inl ⟨by decide, by decide⟩
  exact (decides.mpr settled).1 _ rfl (stack 0 0 0)

/-- The same user, let in or turned down by what is on the stack. -/
theorem dbcheckSession_locked :
    dbcheckSession Int32.ofNat (answering .error) 0 0 0 megabyte [0x61] (stack 0 0 0) = .accepted ∧
      dbcheckSession Int32.ofNat (answering .error) 0 0 0 megabyte [0x61] (stack 2000000 0 0) =
        .deniedData := by
  decide +kernel

end Rut9xx.Chilli
