import Rut9xx.Data.SqlText
import Rut9xx.Chilli.QuotaWindow

namespace Rut9xx.Chilli

open Data

/-! # The SQL of a session (`database.c`, `database.h`)

Texts are as `%s` prints them, without a NUL; `asprintf` finds the memory. -/

/-! ## Printed values -/

def decimal (value : Nat) : List UInt8 := (Nat.toDigits 10 value).map fun c => UInt8.ofNat c.toNat

/-- `%d`, `%ld` and `%lld` -/
def printInt (value : Int) : List UInt8 :=
  if value < 0 then hyphen :: decimal value.natAbs else decimal value.natAbs

/-- What `%lld` takes a `uint64_t` for. -/
def asSigned (value : UInt64) : Int := (value.toNat : Int).bmod 18446744073709551616

def upperDigit (digit : UInt8) : UInt8 := if digit < 10 then 0x30 + digit else 0x37 + digit

/-- `%.2X` -/
def printByte (byte : UInt8) : List UInt8 := [upperDigit (byte / 16), upperDigit (byte % 16)]

/-- `MAC_FMT` -/
def printMac (mac : Vector UInt8 6) : List UInt8 :=
  (mac.toList.map printByte).intersperse [hyphen] |>.flatten

/-- `inet_ntoa` -/
def inetNtoa (a b c d : UInt8) : List UInt8 :=
  ([a, b, c, d].map fun byte => decimal byte.toNat).intersperse [0x2e] |>.flatten

/-! ## The session and its statements -/

/-- What the statements take from a session; `ifname` is the interface of its network. -/
structure SqlSession where
  hismac : Vector UInt8 6
  hisip : UInt8 × UInt8 × UInt8 × UInt8
  username : List UInt8
  ifname : List UInt8
  sessionid : List UInt8
  authenticated : Int
  authMode : Int
  terminateCauseUi : Int
  inputOctets : UInt64
  outputOctets : UInt64
  inputPackets : UInt64
  outputPackets : UInt64

def SqlSession.ip (session : SqlSession) : List UInt8 :=
  inetNtoa session.hisip.1 session.hisip.2.1 session.hisip.2.2.1 session.hisip.2.2.2

/-- The query of `dbsession_data`. -/
def dbsessionSql (gmtoff period start timestampNow : Int) (username : List UInt8) : List UInt8 :=
  ascii "SELECT SUM(input_packets) AS input_packets, SUM(output_packets) AS output_packets," ++
    ascii "SUM(input_octets) AS input_octets, SUM(output_octets) AS output_octets," ++
    ascii " SUM(sessiontime) AS sessiontime FROM statistics" ++ ascii " WHERE start_time >= " ++
    printInt (dbsessionWindow gmtoff period start timestampNow) ++ ascii " AND username = '" ++
    username ++ ascii "';"

/-- `INSERT_FMT` as `dbwrite` fills it. -/
def dbwriteSql (timeNow : Int) (session : SqlSession) : List UInt8 :=
  ascii "INSERT INTO statistics (start_time, mac, ip, username, session, ifname, sessionid," ++
    ascii "authmode) VALUES (" ++ printInt timeNow ++ ascii ", '" ++ printMac session.hismac ++
    ascii "', '" ++ session.ip ++ ascii "', '" ++ session.username ++ ascii "', " ++
    printInt session.authenticated ++ ascii ", '" ++ session.ifname ++ ascii "', '" ++
    session.sessionid ++ ascii "', '" ++ printInt session.authMode ++ ascii "');"

/-- `UPDATE_FMT` as `dbupdate` fills it, with the times as casts to `long` give them. -/
def dbupdateSql (timeNow idletime sessiontime : Int) (session : SqlSession) : List UInt8 :=
  ascii "UPDATE statistics SET last_update = " ++ printInt timeNow ++ ascii ", idletime = " ++
    printInt idletime ++ ascii ", sessiontime = " ++ printInt sessiontime ++
    ascii ", input_octets = " ++ printInt (asSigned session.inputOctets) ++ ascii "," ++
    ascii " output_octets = " ++ printInt (asSigned session.outputOctets) ++
    ascii ", input_packets = " ++ printInt (asSigned session.inputPackets) ++
    ascii ", output_packets = " ++ printInt (asSigned session.outputPackets) ++
    ascii ", session = " ++ printInt session.authenticated ++ ascii "," ++
    ascii " terminate_cause = " ++ printInt session.terminateCauseUi ++ ascii " WHERE mac = '" ++
    printMac session.hismac ++ ascii "' AND session = " ++ printInt 1 ++ ascii " AND sessionid = '" ++
    session.sessionid ++ ascii "';"

/-! ## Printed values are plain -/

variable {value : Int} {byte : UInt8} {digits : List UInt8}

theorem decimal_digits {count : Nat} : ∀ byte ∈ decimal count, digitByte byte := by
  intro byte member
  obtain ⟨c, isDigit, rfl⟩ := List.mem_map.mp member
  have digit := Nat.isDigit_of_mem_toDigits (by decide) (by decide) isDigit
  rw [Char.isDigit, Bool.and_eq_true, decide_eq_true_eq, decide_eq_true_eq] at digit
  have low : 48 ≤ c.toNat := UInt32.le_iff_toNat_le.mp digit.1
  have high : c.toNat ≤ 57 := UInt32.le_iff_toNat_le.mp digit.2
  generalize c.toNat = code at low high
  interval_cases code <;> decide

theorem plain_digits (all : ∀ byte ∈ digits, digitByte byte) : plain digits := by
  induction digits with
  | nil => rfl
  | cons byte rest ih =>
      have digit := all byte List.mem_cons_self
      have further := ih fun byte member => all byte (List.mem_cons_of_mem _ member)
      simp only [plain, further, and_true, decide_eq_true_eq]
      refine ⟨?_, ?_, ?_, ?_, ?_, ?_, ?_⟩ <;>
        intro same <;> exact absurd (same ▸ digit) (by decide)

theorem plain_printInt : plain (printInt value) := by
  have digits := @decimal_digits value.natAbs
  unfold printInt
  split
  · have some' : decimal value.natAbs ≠ [] := by simp [decimal]
    obtain ⟨first, rest, same⟩ := List.exists_cons_of_ne_nil some'
    have head : digitByte first := digits first (by simp [same])
    have simple := plain_digits digits
    rw [same] at simple ⊢
    rw [plain, simple]
    simp [head, hyphen, quote, semicolon]
  · exact plain_digits digits

theorem quote_printInt : quote ∉ printInt value := fun member => (plain_mem plain_printInt member).1 rfl

theorem quote_decimal {count : Nat} : quote ∉ decimal count :=
  fun member => (plain_mem (plain_digits decimal_digits) member).1 rfl

theorem quote_intersperse {separator : UInt8} {printed : List (List UInt8)} (other : separator ≠ quote)
    (each : ∀ text ∈ printed, quote ∉ text) : quote ∉ (printed.intersperse [separator]).flatten := by
  induction printed using List.twoStepInduction with
  | nil => simp
  | singleton text => simpa using each
  | cons_cons text next rest _ ih =>
      have first := each text List.mem_cons_self
      have further := ih next fun text member => each text (List.mem_cons_of_mem _ member)
      simp only [List.intersperse_cons_cons, List.flatten_cons, List.mem_append, List.mem_singleton, not_or]
      exact ⟨first, other.symm, further⟩

theorem quote_printByte : quote ∉ printByte byte := by
  have each : ∀ code : Fin 256, quote ∉ printByte (UInt8.ofNat code) := by decide +kernel
  simpa using each ⟨byte.toNat, byte.toNat_lt⟩

theorem quote_mac {mac : Vector UInt8 6} : quote ∉ printMac mac := by
  apply quote_intersperse (by decide)
  intro text member
  obtain ⟨byte, _, rfl⟩ := List.mem_map.mp member
  exact quote_printByte

theorem quote_ip {session : SqlSession} : quote ∉ session.ip := by
  apply quote_intersperse (by decide)
  intro text member
  obtain ⟨byte, _, rfl⟩ := List.mem_map.mp member
  exact quote_decimal

/-! ## The intended statements -/

theorem part_plain {before after : List UInt8} (first : plain before ∧ before ≠ [])
    (second : plain after) :
    plain (before ++ printInt value ++ after) ∧ before ++ printInt value ++ after ≠ [] :=
  ⟨plain_append (plain_append first.1 plain_printInt) second, by simp [first.2]⟩

theorem more_plain {before after : List UInt8} (first : plain before ∧ before ≠ [])
    (second : plain after) : plain (before ++ after) ∧ before ++ after ≠ [] :=
  ⟨plain_append first.1 second, by simp [first.2]⟩

/-- The query for one user, from the start of the period. -/
def selectForm (window : Int) (username : List UInt8) : SqlForm where
  parts := [
    (ascii "SELECT SUM(input_packets) AS input_packets, SUM(output_packets) AS output_packets," ++
      ascii "SUM(input_octets) AS input_octets, SUM(output_octets) AS output_octets," ++
      ascii " SUM(sessiontime) AS sessiontime FROM statistics" ++ ascii " WHERE start_time >= " ++
      printInt window ++ ascii " AND username = ", username)]
  last := []
  plainParts := by
    intro part member
    rw [List.mem_singleton.mp member]
    exact part_plain (by decide +kernel) (by decide +kernel)
  plainLast := rfl

/-- A row of one session. -/
def insertForm (timeNow : Int) (session : SqlSession) : SqlForm where
  parts := [
    (ascii "INSERT INTO statistics (start_time, mac, ip, username, session, ifname, sessionid," ++
      ascii "authmode) VALUES (" ++ printInt timeNow ++ ascii ", ", printMac session.hismac),
    (ascii ", ", session.ip),
    (ascii ", ", session.username),
    (ascii ", " ++ printInt session.authenticated ++ ascii ", ", session.ifname),
    (ascii ", ", session.sessionid),
    (ascii ", ", printInt session.authMode)]
  last := ascii ")"
  plainParts := by
    simp only [List.forall_mem_cons, List.not_mem_nil, false_implies, implies_true, and_true]
    have comma : plain (ascii ", ") ∧ ascii ", " ≠ [] := by decide
    exact ⟨part_plain (by decide +kernel) comma.1, comma, comma, part_plain comma comma.1, comma, comma⟩
  plainLast := by rfl

/-- The counters of one session, in its row. -/
def updateForm (timeNow idletime sessiontime : Int) (session : SqlSession) : SqlForm where
  parts := [
    (ascii "UPDATE statistics SET last_update = " ++ printInt timeNow ++ ascii ", idletime = " ++
      printInt idletime ++ ascii ", sessiontime = " ++ printInt sessiontime ++
      ascii ", input_octets = " ++ printInt (asSigned session.inputOctets) ++ ascii "," ++
      ascii " output_octets = " ++ printInt (asSigned session.outputOctets) ++
      ascii ", input_packets = " ++ printInt (asSigned session.inputPackets) ++
      ascii ", output_packets = " ++ printInt (asSigned session.outputPackets) ++
      ascii ", session = " ++ printInt session.authenticated ++ ascii "," ++
      ascii " terminate_cause = " ++ printInt session.terminateCauseUi ++ ascii " WHERE mac = ",
      printMac session.hismac),
    (ascii " AND session = " ++ printInt 1 ++ ascii " AND sessionid = ", session.sessionid)]
  last := []
  plainParts := by
    simp only [List.forall_mem_cons, List.not_mem_nil, false_implies, implies_true, and_true]
    constructor
    · apply part_plain _ (by rfl)
      apply more_plain _ (by decide +kernel)
      apply part_plain _ (by rfl)
      apply part_plain _ (by rfl)
      apply part_plain _ (by decide +kernel)
      apply part_plain _ (by decide +kernel)
      apply more_plain _ (by rfl)
      apply part_plain _ (by rfl)
      apply part_plain _ (by rfl)
      apply part_plain _ (by rfl)
      exact part_plain (by decide +kernel) (by decide +kernel)
    · exact part_plain (by decide) (by decide)
  plainLast := rfl

/-! ## The statements are the intended ones with their texts pasted -/

theorem openQuote : ascii ", '" = ascii ", " ++ [quote] := by rfl

theorem closeQuote : ascii "', " = [quote] ++ ascii ", " := by rfl

theorem betweenQuotes : ascii "', '" = [quote] ++ (ascii ", " ++ [quote]) := by rfl

theorem dbsessionSql_render {gmtoff period start timestampNow : Int} {username : List UInt8} :
    dbsessionSql gmtoff period start timestampNow username =
      (selectForm (dbsessionWindow gmtoff period start timestampNow) username).render := by
  have opened : ascii " AND username = '" = ascii " AND username = " ++ [quote] := by rfl
  have closed : ascii "';" = [quote, semicolon] := by rfl
  unfold dbsessionSql SqlForm.render
  simp only [selectForm, renderParts, List.flatMap_cons, List.flatMap_nil]
  simp only [opened, closed]
  simp only [List.append_assoc, List.cons_append, List.nil_append]

theorem dbwriteSql_render {timeNow : Int} {session : SqlSession} :
    dbwriteSql timeNow session = (insertForm timeNow session).render := by
  have closed : ascii "');" = [quote] ++ (ascii ")" ++ [semicolon]) := by rfl
  unfold dbwriteSql SqlForm.render
  simp only [insertForm, renderParts, List.flatMap_cons, List.flatMap_nil]
  simp only [openQuote, closeQuote, betweenQuotes, closed]
  simp only [List.append_assoc, List.cons_append, List.nil_append]

theorem dbupdateSql_render {timeNow idletime sessiontime : Int} {session : SqlSession} :
    dbupdateSql timeNow idletime sessiontime session =
      (updateForm timeNow idletime sessiontime session).render := by
  have mac : ascii " WHERE mac = '" = ascii " WHERE mac = " ++ [quote] := by rfl
  have between : ascii "' AND session = " = [quote] ++ ascii " AND session = " := by rfl
  have opened : ascii " AND sessionid = '" = ascii " AND sessionid = " ++ [quote] := by rfl
  have closed : ascii "';" = [quote, semicolon] := by rfl
  unfold dbupdateSql SqlForm.render
  simp only [updateForm, renderParts, List.flatMap_cons, List.flatMap_nil]
  simp only [mac, between, opened, closed]
  simp only [List.append_assoc, List.cons_append, List.nil_append]

/-- Each statement is the intended one, its literals the texts themselves, exactly when no quote is in
what is pasted as it is. -/
theorem sessionSql_iff (gmtoff period start timestampNow timeNow idletime sessiontime : Int)
    (username : List UInt8) (session : SqlSession) :
    (ReadsAs (dbsessionSql gmtoff period start timestampNow username)
        (selectForm (dbsessionWindow gmtoff period start timestampNow) username) ↔
      quote ∉ username) ∧
    (ReadsAs (dbwriteSql timeNow session) (insertForm timeNow session) ↔
      quote ∉ session.username ∧ quote ∉ session.ifname ∧ quote ∉ session.sessionid) ∧
    (ReadsAs (dbupdateSql timeNow idletime sessiontime session)
        (updateForm timeNow idletime sessiontime session) ↔
      quote ∉ session.sessionid) := by
  refine ⟨?_, ?_, ?_⟩
  · rw [dbsessionSql_render, readsAs_render_iff]
    simp [selectForm]
  · rw [dbwriteSql_render, readsAs_render_iff]
    simp [insertForm, quote_mac, quote_ip, quote_printInt]
  · rw [dbupdateSql_render, readsAs_render_iff]
    simp [updateForm, quote_mac]

/-! ## A name that asks for every user -/

def everyUser : List UInt8 := ascii "' OR ''='"

/-- The one literal becomes three empty ones. -/
theorem dbsessionSql_everyUser :
    ((readSql none (dbsessionSql 0 periodDay 0 0 everyUser)).map fun tokens =>
        tokens.filterMap fun
          | .literal text => some text
          | .byte _ => none) = some [[], [], []] ∧
      ¬ ReadsAs (dbsessionSql 0 periodDay 0 0 everyUser)
        (selectForm (dbsessionWindow 0 periodDay 0 0) everyUser) := by
  constructor
  · decide +kernel
  · rw [dbsessionSql_render, readsAs_render_iff]
    intro noQuote
    exact noQuote _ List.mem_cons_self (by decide)

end Rut9xx.Chilli
