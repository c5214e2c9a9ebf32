import PerfReport.Proofs.Aggregate.Update
import PerfReport.Proofs.Number.Converted
import PerfReport.Proofs.Number.Numeral
import PerfReport.Proofs.Text.Blank

/-!
# Records read

Which lines are records of whole numbers, what they are read as, and what is
said of those that are not.

* `Text.Decimal`, `Text.Spells`: digits and the number that they are in base ten,
  a numeral and its value, however many digits it has;
* `Int64.ofText?_eq_some_iff`: the reader of fields finds that value;
* `readTokens_eq_error_iff`: of a row of fields, the first that cannot be read;
* `integers_grammar`: whole lines, read exactly and read as doubles.
-/

namespace PerfReport

/-! ## Numerals -/

namespace Text

/-- One or more decimal digits and the number that they are in base ten, the
last digit weighing least. -/
structure Decimal (digits : Text) (n : Nat) : Prop where
  nonempty : digits ≠ []
  bytes : ∀ b ∈ digits, 48 ≤ b.toNat ∧ b.toNat ≤ 57
  value : n = Nat.ofDigits 10 (digits.reverse.map fun b => b.toNat - 48)

/-- Decimal digits behind an optional sign, with the number that they spell. -/
inductive Spells : Text → Int → Prop
  | bare {digits : Text} {n : Nat} (h : Decimal digits n) : Spells digits n
  | plus {digits : Text} {n : Nat} (h : Decimal digits n) : Spells (43 :: digits) n
  | minus {digits : Text} {n : Nat} (h : Decimal digits n) : Spells (45 :: digits) (-(n : Int))

theorem numeralValue_eq_ofDigits (t : Text) :
    numeralValue t = Nat.ofDigits 10 (t.reverse.map fun b => b.toNat - 48) := by
  induction t using List.reverseRecOn with
  | nil => rfl
  | append_singleton t b ih =>
    rw [List.reverse_append, List.reverse_singleton, List.singleton_append, List.map_cons,
      Nat.ofDigits_cons, ← ih, numeralValue, numeralValue, List.foldl_append, List.foldl_cons,
      List.foldl_nil, Nat.add_comm]
    rfl

theorem isDigit_iff (b : UInt8) : isDigit b = true ↔ 48 ≤ b.toNat ∧ b.toNat ≤ 57 := by
  simp only [isDigit, Bool.and_eq_true, decide_eq_true_eq, UInt8.le_iff_toNat_le]
  rfl

theorem decimal_iff (digits : Text) (n : Nat) : Decimal digits n ↔
    digits ≠ [] ∧ (∀ b ∈ digits, isDigit b = true) ∧ n = numeralValue digits := by
  simp only [isDigit_iff, numeralValue_eq_ofDigits]
  exact ⟨fun h => ⟨h.nonempty, h.bytes, h.value⟩, fun ⟨hne, hdigits, hn⟩ => ⟨hne, hdigits, hn⟩⟩

/-- A whole number of 64 bits. -/
def IsWhole (t : Text) : Prop := ∃ n, t.Spells n ∧ Int64.InRange n

/-- The number that digits spell behind a sign. -/
def signed (negative : Bool) (n : Nat) : Int := if negative then -(n : Int) else n

theorem takeSign_cases (t : Text) :
    takeSign t = (false, t) ∨ (∃ digits, t = 43 :: digits ∧ takeSign t = (false, digits)) ∨
      ∃ digits, t = 45 :: digits ∧ takeSign t = (true, digits) := by
  fun_cases takeSign t with
  | case1 digits => exact .inr (.inl ⟨digits, rfl, rfl⟩)
  | case2 digits => exact .inr (.inr ⟨digits, rfl, rfl⟩)
  | case3 => exact .inl rfl

theorem spells_iff (t : Text) (n : Int) : t.Spells n ↔
    (takeSign t).2 ≠ [] ∧ (∀ b ∈ (takeSign t).2, isDigit b = true) ∧
      n = signed (takeSign t).1 (numeralValue (takeSign t).2) := by
  constructor
  · intro h
    cases h with
    | bare h =>
      obtain ⟨hne, hdigits, rfl⟩ := (decimal_iff _ _).mp h
      rw [takeSign_digits hdigits]
      exact ⟨hne, hdigits, rfl⟩
    | plus h =>
      obtain ⟨hne, hdigits, rfl⟩ := (decimal_iff _ _).mp h
      exact ⟨hne, hdigits, rfl⟩
    | minus h =>
      obtain ⟨hne, hdigits, rfl⟩ := (decimal_iff _ _).mp h
      exact ⟨hne, hdigits, rfl⟩
  · rintro ⟨hne, hdigits, rfl⟩
    have h := (decimal_iff _ _).mpr ⟨hne, hdigits, rfl⟩
    rcases takeSign_cases t with hsign | ⟨digits, rfl, hsign⟩ | ⟨digits, rfl, hsign⟩
    · rw [hsign] at h ⊢
      exact .bare h
    · exact .plus h
    · exact .minus h

end Text

namespace Int64

/-- The limit is beyond the range on either side. -/
theorem ofInt?_upTo (negative : Bool) (digits : Text) :
    ofInt? (Text.signed negative (Text.numeralUpTo (pow2 64) digits)) =
      ofInt? (Text.signed negative (Text.numeralValue digits)) := by
  rcases Text.numeralUpTo_cases (pow2 64) digits with ⟨h, -⟩ | ⟨hcut, hvalue⟩
  · rw [h]
  · have hlimit : pow2 64 = 18446744073709551616 := rfl
    have hbeyond : ∀ n : Nat, pow2 64 ≤ n → ofInt? (Text.signed negative n) = none := by
      intro n hn
      rw [ofInt?, if_neg]
      rw [least_eq, greatest_eq, Text.signed]
      split <;> omega
    rw [hbeyond _ hcut, hbeyond _ hvalue]

theorem ofText?_eq (t : Text) : ofText? t =
    if (takeSign t).2 ≠ [] ∧ ∀ b ∈ (takeSign t).2, Text.isDigit b = true then
      ofInt? (Text.signed (takeSign t).1 (Text.numeralValue (takeSign t).2))
    else none := by
  rw [ofText?]
  generalize takeSign t = parts
  obtain ⟨negative, digits⟩ := parts
  dsimp only
  have hcheck : (digits.isEmpty || !digits.all Text.isDigit) = false ↔
      digits ≠ [] ∧ ∀ b ∈ digits, Text.isDigit b = true := by simp
  rw [← ofInt?_upTo]
  split
  · next h => rw [if_neg (fun hgood => by simp [hcheck.mpr hgood] at h)]
  · next h => rw [if_pos (hcheck.mp (Bool.eq_false_of_not_eq_true h))]; rfl

/-- **Fields of whole numbers** are the numerals with a value in range. -/
theorem ofText?_eq_some_iff (t : Text) (n : Int64) : ofText? t = some n ↔ t.Spells n.toInt := by
  rw [ofText?_eq, Text.spells_iff, ← and_assoc]
  split
  · next h => rw [ofInt?_eq_some_iff, and_iff_right h, eq_comm]
  · next h => exact iff_of_false nofun fun hn => h hn.1

theorem isWhole_iff (t : Text) : t.IsWhole ↔ ∃ n, ofText? t = some n := by
  constructor
  · rintro ⟨k, hk, hrange⟩
    obtain ⟨n, rfl⟩ := exists_toInt_eq hrange
    exact ⟨n, (ofText?_eq_some_iff t n).mpr hk⟩
  · rintro ⟨n, hn⟩
    exact ⟨n.toInt, (ofText?_eq_some_iff t n).mp hn, inRange_toInt n⟩

theorem ofText?_eq_none_iff (t : Text) : ofText? t = none ↔ ¬ t.IsWhole := by
  rw [isWhole_iff, Option.eq_none_iff_forall_ne_some, not_exists]

end Int64

/-! ## Rows of fields -/

section Rows

variable {α β : Type} (read? : Text → Option α) (kind : NumericKind)

/-- The first token that cannot be read is the one that is reported. -/
theorem readTokens_eq_error_iff (index : Nat) (done : List α) (tokens : List Text)
    (e : FormatError) :
    readTokens read? kind index done tokens = .error e ↔
      ∃ before t after, tokens = before ++ t :: after ∧ (∀ s ∈ before, ∃ x, read? s = some x) ∧
        read? t = none ∧ e = .badToken (index + before.length) t kind := by
  induction tokens generalizing index done with
  | nil => simp [readTokens]
  | cons t tokens ih =>
    rw [readTokens]
    cases ht : read? t with
    | none =>
      constructor
      · rintro ⟨⟩
        exact ⟨[], t, tokens, rfl, by simp, ht, rfl⟩
      · rintro ⟨before, bad, after, hsplit, hbefore, hbad, rfl⟩
        cases before with
        | nil =>
          obtain ⟨rfl, rfl⟩ := List.cons.inj hsplit
          rfl
        | cons s before =>
          obtain ⟨rfl, rfl⟩ := List.cons.inj hsplit
          obtain ⟨x, hx⟩ := hbefore t List.mem_cons_self
          rw [ht] at hx
          cases hx
    | some x =>
      rw [ih]
      constructor
      · rintro ⟨before, bad, after, rfl, hbefore, hbad, rfl⟩
        refine ⟨t :: before, bad, after, rfl, List.forall_mem_cons.mpr ⟨⟨x, ht⟩, hbefore⟩, hbad, ?_⟩
        rw [List.length_cons, Nat.add_assoc, Nat.add_comm 1]
      · rintro ⟨before, bad, after, hsplit, hbefore, hbad, rfl⟩
        cases before with
        | nil =>
          obtain ⟨rfl, rfl⟩ := List.cons.inj hsplit
          rw [ht] at hbad
          cases hbad
        | cons s before =>
          obtain ⟨rfl, rfl⟩ := List.cons.inj hsplit
          refine ⟨before, bad, after, rfl, (List.forall_mem_cons.mp hbefore).2, hbad, ?_⟩
          rw [List.length_cons, Nat.add_assoc, Nat.add_comm 1]

/-- What is done to every value may be done after all have been read. -/
theorem readTokens_map (f : α → β) (index : Nat) (done : List α) (tokens : List Text) :
    readTokens (fun t => (read? t).map f) kind index (done.map f) tokens =
      (readTokens read? kind index done tokens).map (List.map f) := by
  induction tokens generalizing index done with
  | nil => simp [readTokens, Except.map]
  | cons t tokens ih =>
    rw [readTokens, readTokens]
    cases read? t with
    | none => rfl
    | some x => exact ih (index + 1) (x :: done)

end Rows

/-! ## Whole lines -/

theorem map_eq_map_some_iff {α β : Type} {f : α → Option β} (xs : List α) (ys : List β) :
    xs.map f = ys.map some ↔ List.Forall₂ (fun x y => f x = some y) xs ys := by
  rw [← List.forall₂_eq_eq_eq, List.forall₂_map_left_iff, List.forall₂_map_right_iff]

theorem exists_forall₂_iff {α β : Type} {R : α → β → Prop} (xs : List α) :
    (∃ ys, List.Forall₂ R xs ys) ↔ ∀ x ∈ xs, ∃ y, R x y := by
  induction xs with
  | nil => simp
  | cons x xs ih => simp [List.forall₂_cons_left_iff, ← ih]

theorem parseIntegers_eq (line : Text) (arity : Nat) : parseIntegers line arity =
    if line.fields.length = arity then readTokens Int64.ofText? .integer 0 [] line.fields
    else .error (.fieldCount arity line.fields.length) := by
  rw [parseIntegers, splitRecord]
  simp only [Int.natCast_inj]
  split <;> rfl

theorem parseIntegers_eq_ok_iff (line : Text) (arity : Nat) (values : List Int64) :
    parseIntegers line arity = .ok values ↔ line.fields.length = arity ∧
      List.Forall₂ (fun run n => run.Spells n.toInt) line.fields values := by
  rw [parseIntegers_eq]
  split
  · next h => simp [readTokens_eq_ok_iff, map_eq_map_some_iff, Int64.ofText?_eq_some_iff, h]
  · next h => simp [h]

theorem parseIntegers_eq_error_iff (line : Text) (arity : Nat) (e : FormatError) :
    parseIntegers line arity = .error e ↔
      (line.fields.length ≠ arity ∧ e = .fieldCount arity line.fields.length) ∨
      (line.fields.length = arity ∧ ∃ before run after, line.fields = before ++ run :: after ∧
        (∀ r ∈ before, r.IsWhole) ∧ ¬ run.IsWhole ∧ e = .badToken before.length run .integer) := by
  rw [parseIntegers_eq]
  split
  · next h =>
    rw [readTokens_eq_error_iff, or_iff_right (fun hn => hn.1 h), and_iff_right h]
    simp only [Int64.isWhole_iff, Int64.ofText?_eq_none_iff, Nat.zero_add]
  · next h =>
    rw [or_iff_left (fun hn => h hn.1), and_iff_right h, Except.error.injEq, eq_comm]

/-- The doubles are those that the exact values convert to. -/
theorem parseRecord_integer (line : Text) (arity : Int) :
    parseRecord line arity .integer =
      (parseIntegers line arity).map (List.map Double.ofWhole) := by
  have hfield : readField? .integer = fun t => (Int64.ofText? t).map Double.ofWhole := rfl
  rw [parseRecord, parseIntegers, hfield]
  cases splitRecord line arity with
  | error e => rfl
  | ok tokens => exact readTokens_map Int64.ofText? .integer Double.ofWhole 0 [] tokens

/-- **The grammar of whole records.**  A line is split into its runs in one way.
It is a record of `arity` whole numbers exactly if it has as many runs and each
is a numeral with a value of 64 bits, and these are the values. Otherwise the
count of the runs is reported, with no column, or else the first run that is
none, with its column. Reading the line as doubles fails in the same way and
otherwise gives, for every one of the same values, the double closest to it. -/
theorem integers_grammar (line : Text) (arity : Nat) :
    ∃ runs, (∀ other, line.Splits other ↔ other = runs) ∧
      ((∃ values, parseIntegers line arity = .ok values) ↔
        runs.length = arity ∧ ∀ run ∈ runs, run.IsWhole) ∧
      (∀ values, parseIntegers line arity = .ok values ↔
        runs.length = arity ∧ List.Forall₂ (fun run n => run.Spells n.toInt) runs values) ∧
      (∀ e, parseIntegers line arity = .error e ↔
        (runs.length ≠ arity ∧ e = .fieldCount arity runs.length ∧ e.column = 0) ∨
        (runs.length = arity ∧ ∃ before run after, runs = before ++ run :: after ∧
          (∀ r ∈ before, r.IsWhole) ∧ ¬ run.IsWhole ∧
          e = .badToken before.length run .integer ∧
          e.column = before.length + 1 ∧ e.token = run)) ∧
      (∀ e, parseRecord line arity .integer = .error e ↔ parseIntegers line arity = .error e) ∧
      ∀ values, parseIntegers line arity = .ok values →
        ∃ record, parseRecord line arity .integer = .ok record ∧
          List.Forall₂ (fun n x => Double.Closest n.toInt x) values record := by
  refine ⟨line.fields, line.splits_iff, ?_, parseIntegers_eq_ok_iff line arity, ?_, ?_, ?_⟩
  · simp only [parseIntegers_eq_ok_iff, exists_and_left, exists_forall₂_iff, Int64.isWhole_iff,
      Int64.ofText?_eq_some_iff]
  · intro e
    rw [parseIntegers_eq_error_iff]
    constructor
    · rintro (⟨hcount, rfl⟩ | ⟨hcount, before, run, after, hsplit, hbefore, hrun, rfl⟩)
      · exact .inl ⟨hcount, rfl, rfl⟩
      · exact .inr ⟨hcount, before, run, after, hsplit, hbefore, hrun, rfl, rfl, rfl⟩
    · rintro (⟨hcount, he, -⟩ | ⟨hcount, before, run, after, hsplit, hbefore, hrun, he, -⟩)
      · exact .inl ⟨hcount, he⟩
      · exact .inr ⟨hcount, before, run, after, hsplit, hbefore, hrun, he⟩
  · intro e
    rw [parseRecord_integer]
    cases parseIntegers line arity <;> simp [Except.map]
  · intro values hv
    refine ⟨values.map Double.ofWhole, by rw [parseRecord_integer, hv]; rfl, ?_⟩
    rw [List.forall₂_map_right_iff, List.forall₂_same]
    exact fun n _ => Double.closest_ofWhole n

end PerfReport
