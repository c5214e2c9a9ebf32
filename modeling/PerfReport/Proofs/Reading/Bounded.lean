import Mathlib
import PerfReport.Proofs.Reading
import PerfReport.Proofs.Text.Blank

/-!
# Reading up to a limit

A reading is a fold over the records of a text that ends early: the records are
the lines with a field in them, and every line has its number, blank or not.

* `Text.physicalLines`, `Text.lines_eq`: lines are the pieces between newlines;
* `Stop`: why a reading ends;
* `readLines_eq_iff`: one line after the other;
* `readFrom_bounded_fold`: whole texts, and what comes behind the limit.
-/

namespace PerfReport

namespace Text

/-! ## Physical lines -/

/-- An empty last piece is none. -/
def dropOpen (pieces : List Text) : List Text :=
  if pieces.getLast? = some [] then pieces.dropLast else pieces

/-- The pieces between newlines; a newline at the end starts no other piece. -/
def physicalLines (t : Text) : List Text := dropOpen (t.splitOn 10)

/-- A carriage return at the end is no part of a line. -/
def withoutReturn (line : Text) : Text := if line.getLast? = some 13 then line.dropLast else line

/-- The newline, if there is one, is among the first 1048576 bytes. -/
def fitsBuffer (line : Text) : Bool := line.length < 1048576

/-- The lines before the first that does not fit, and whether there is one. -/
def scan (pieces : List Text) : Lines :=
  ⟨(pieces.takeWhile fitsBuffer).map withoutReturn, pieces.any fun line => !line.fitsBuffer⟩

theorem finishLine_reverse (line : Text) : finishLine line.reverse = line.withoutReturn := by
  rcases List.eq_nil_or_concat line with rfl | ⟨bytes, b, rfl⟩
  · rfl
  · by_cases hb : b = 13 <;> simp [finishLine, withoutReturn, hb]

theorem dropOpen_cons {piece : Text} {pieces : List Text} (h : pieces ≠ []) :
    dropOpen (piece :: pieces) = piece :: dropOpen pieces := by
  obtain ⟨next, rest, rfl⟩ := List.exists_cons_of_ne_nil h
  unfold dropOpen
  rw [List.getLast?_cons_cons, List.dropLast_cons_cons]
  split <;> rfl

theorem exists_dropOpen_cons {piece : Text} (h : piece ≠ []) (pieces : List Text) :
    ∃ rest, dropOpen (piece :: pieces) = piece :: rest := by
  cases pieces with
  | nil => exact ⟨[], by simp [dropOpen, h]⟩
  | cons next rest => exact ⟨_, dropOpen_cons (List.cons_ne_nil next rest)⟩

theorem scan_cons {piece : Text} {pieces : List Text} (h : piece.length ≤ lineRoom) :
    scan (piece :: pieces) =
      ⟨piece.withoutReturn :: (scan pieces).complete, (scan pieces).overlong⟩ := by
  have hfits : piece.fitsBuffer = true := decide_eq_true (Nat.lt_succ_of_le h)
  simp [scan, hfits]

theorem scan_cons_overlong {piece : Text} {pieces : List Text} (h : lineRoom < piece.length) :
    scan (piece :: pieces) = ⟨[], true⟩ := by
  have hfits : piece.fitsBuffer = false := decide_eq_false (Nat.not_lt.mpr h)
  simp [scan, hfits]

theorem splitOn_cons (b : UInt8) (t : Text) : (b :: t).splitOn 10 =
    if b = 10 then [] :: t.splitOn 10 else (t.splitOn 10).modifyHead (b :: ·) := by
  simp [List.splitOn, List.splitOnP_cons_eq_if_modifyHead]

theorem modifyHead_nothing (pieces : List Text) : pieces.modifyHead ([] ++ ·) = pieces := by
  cases pieces <;> rfl

/-- The bytes of the current line that were already seen are put in front of the
first piece. -/
theorem linesFrom_eq (t current : Text) (room : Nat) (h : room + current.length = lineRoom) :
    linesFrom t room current [] =
      scan (dropOpen ((t.splitOn 10).modifyHead (current.reverse ++ ·))) := by
  induction t generalizing current room with
  | nil =>
    have hcurrent : current.reverse.length ≤ lineRoom := by
      rw [List.length_reverse]
      omega
    rw [linesFrom, List.splitOn_nil, List.modifyHead_cons, List.append_nil]
    cases current with
    | nil => rfl
    | cons b bytes =>
      have hopen : dropOpen [(b :: bytes).reverse] = [(b :: bytes).reverse] := by
        simp [dropOpen]
      rw [hopen, scan_cons hcurrent, ← finishLine_reverse, List.reverse_reverse]
      rfl
  | cons b t ih =>
    have hne := List.splitOn_ne_nil 10 t
    rw [splitOn_cons]
    by_cases hb : b = 10
    · have hcurrent : current.reverse.length ≤ lineRoom := by
        rw [List.length_reverse]
        omega
      have hrest := ih [] lineRoom rfl
      rw [List.reverse_nil, modifyHead_nothing] at hrest
      have hstep : linesFrom (b :: t) room current [] =
          linesFrom t lineRoom [] [finishLine current] := by simp only [linesFrom, hb, if_true]
      rw [hstep, if_pos hb, linesFrom_done, hrest, List.modifyHead_cons, List.append_nil,
        dropOpen_cons hne, scan_cons hcurrent, ← finishLine_reverse, List.reverse_reverse]
      rfl
    · rw [if_neg hb, List.modifyHead_modifyHead]
      cases room with
      | zero =>
        obtain ⟨piece, pieces, hsplit⟩ := List.exists_cons_of_ne_nil hne
        obtain ⟨rest, hrest⟩ := exists_dropOpen_cons
          (by simp : current.reverse ++ b :: piece ≠ []) pieces
        have hlong : lineRoom < (current.reverse ++ b :: piece).length := by
          simp only [List.length_append, List.length_reverse, List.length_cons]
          omega
        rw [hsplit, List.modifyHead_cons]
        show _ = scan (dropOpen ((current.reverse ++ b :: piece) :: pieces))
        rw [hrest, scan_cons_overlong hlong]
        simp only [linesFrom, hb, if_false, List.reverse_nil]
      | succ room =>
        have hrest := ih (b :: current) room (by rw [List.length_cons]; omega)
        have hstep : linesFrom (b :: t) (room + 1) current [] =
            linesFrom t room (b :: current) [] := by simp only [linesFrom, hb, if_false]
        rw [hstep, hrest]
        simp [Function.comp_def]

theorem lines_eq (t : Text) : t.lines = scan t.physicalLines := by
  rw [lines, linesFrom_eq t [] lineRoom rfl, List.reverse_nil, modifyHead_nothing]
  rfl

/-! ## Lines with fields -/

/-- The lines with a field in them, each with its number; `read` lines were
before them. -/
def recordsFrom (read : Nat) (lines : List Text) : List (Text × Nat) :=
  (lines.zipIdx (read + 1)).filter fun p => !p.1.fields.isEmpty

theorem recordsFrom_blank {read : Nat} {line : Text} {lines : List Text}
    (h : line.isBlankText = true) :
    recordsFrom read (line :: lines) = recordsFrom (read + 1) lines := by
  rw [isBlankText_iff] at h
  simp [recordsFrom, h]

theorem recordsFrom_record {read : Nat} {line : Text} {lines : List Text}
    (h : line.isBlankText = false) :
    recordsFrom read (line :: lines) = (line, read + 1) :: recordsFrom (read + 1) lines := by
  rw [← Bool.not_eq_true, isBlankText_iff] at h
  simp [recordsFrom, h]

/-- The lines that are looked at, if nothing ends the reading before. -/
def scannedLines (t : Text) : List Text := (scan t.physicalLines).complete

/-- The records among them, with their line numbers. -/
def numberedRecords (t : Text) : List (Text × Nat) := recordsFrom 0 t.scannedLines

/-- Some line does not fit. -/
def hasOverlong (t : Text) : Bool := (scan t.physicalLines).overlong

end Text

/-! ## Record by record -/

/-- The limit, if there is one, is not reached. -/
def Below (limit : Int) (added : Nat) : Prop := 0 < limit → (added : Int) < limit

/-- Why a reading ends in front of the records that are left, with what error:
the limit is reached; or it is not, and the next record is refused, or there is
none because the next line does not fit, or because the text ends. -/
inductive Stop (limit : Int) (overlong : Bool) (scanned : Nat) (agg : Aggregate Float)
    (added : Nat) : List (Text × Nat) → Option Error → Prop
  | limit {rest : List (Text × Nat)} (hpos : 0 < limit) (hn : (added : Int) = limit) :
      Stop limit overlong scanned agg added rest none
  | refused {line : Text} {n : Nat} {rest : List (Text × Nat)} {e : FormatError}
      (hl : Below limit added) (he : agg.ingest line = .error e) :
      Stop limit overlong scanned agg added ((line, n) :: rest)
        (some (.format { e with line := n }))
  | overlong (hl : Below limit added) (ho : overlong = true) :
      Stop limit overlong scanned agg added [] (some (.lineTooLong (scanned + 1)))
  | finished (hl : Below limit added) (ho : overlong = false) :
      Stop limit overlong scanned agg added [] none

theorem Stop.of_pos {limit : Int} {overlong : Bool} {scanned added : Nat} {agg : Aggregate Float}
    {rest : List (Text × Nat)} {error : Option Error}
    (h : Stop limit overlong scanned agg added rest error) (hpos : 0 < limit) :
    (added : Int) ≤ limit ∧ ((added : Int) = limit → error = none) := by
  have hbelow (hl : Below limit added) :
      (added : Int) ≤ limit ∧ ((added : Int) = limit → error = none) :=
    ⟨Int.le_of_lt (hl hpos), fun hn => absurd hn (Int.ne_of_lt (hl hpos))⟩
  cases h with
  | limit _ hn => exact ⟨Int.le_of_eq hn, fun _ => rfl⟩
  | refused hl _ => exact hbelow hl
  | overlong hl _ => exact hbelow hl
  | finished hl _ => exact hbelow hl

namespace Aggregate

variable {limit : Int} {overlong : Bool} {scanned added : Nat} {agg : Aggregate Float}
  {records : List (Text × Nat)} {r : Reading}

/-- A fold over the records up to where the reading ends. -/
def Reads (limit : Int) (overlong : Bool) (scanned : Nat) (agg : Aggregate Float) (added : Nat)
    (records : List (Text × Nat)) (r : Reading) : Prop :=
  ∃ accepted rest, records = accepted ++ rest ∧
    (accepted.map Prod.fst).foldlM ingest agg = .ok r.aggregate ∧
    r.added = added + accepted.length ∧
    Stop limit overlong scanned r.aggregate r.added rest r.error

theorem reads_nil_iff (hl : Below limit added) : Reads limit overlong scanned agg added [] r ↔
    r = ⟨agg, added, if overlong then some (.lineTooLong (scanned + 1)) else none⟩ := by
  constructor
  · rintro ⟨accepted, rest, hsplit, hfold, hadded, hstop⟩
    obtain ⟨rfl, rfl⟩ := List.append_eq_nil_iff.mp hsplit.symm
    obtain ⟨agg', added', error⟩ := r
    cases hfold
    cases hadded
    cases hstop with
    | limit hpos hn => exact absurd hn (Int.ne_of_lt (hl hpos))
    | overlong _ ho => rw [if_pos ho]
    | finished _ ho =>
      rw [ho]
      rfl
  · rintro rfl
    refine ⟨[], [], rfl, rfl, rfl, ?_⟩
    cases overlong with
    | true => exact .overlong hl rfl
    | false => exact .finished hl rfl

theorem reads_refused_iff {line : Text} {n : Nat} {e : FormatError} (hl : Below limit added)
    (hi : agg.ingest line = .error e) :
    Reads limit overlong scanned agg added ((line, n) :: records) r ↔
      r = ⟨agg, added, some (.format { e with line := n })⟩ := by
  constructor
  · rintro ⟨accepted, rest, hsplit, hfold, hadded, hstop⟩
    cases accepted with
    | nil =>
      obtain ⟨agg', added', error⟩ := r
      obtain rfl : (line, n) :: records = rest := hsplit
      cases hfold
      cases hadded
      cases hstop with
      | limit hpos hn => exact absurd hn (Int.ne_of_lt (hl hpos))
      | refused _ he =>
        rw [hi] at he
        cases he
        rfl
    | cons p accepted =>
      obtain ⟨rfl, -⟩ := List.cons.inj hsplit
      rw [List.map_cons, List.foldlM_cons, hi] at hfold
      cases hfold
  · rintro rfl
    exact ⟨[], _, rfl, rfl, rfl, .refused hl hi⟩

theorem reads_accepted_iff {line : Text} {n : Nat} {next : Aggregate Float}
    (hl : Below limit added) (hi : agg.ingest line = .ok next) :
    Reads limit overlong scanned agg added ((line, n) :: records) r ↔
      Reads limit overlong scanned next (added + 1) records r := by
  constructor
  · rintro ⟨accepted, rest, hsplit, hfold, hadded, hstop⟩
    cases accepted with
    | nil =>
      obtain ⟨agg', added', error⟩ := r
      obtain rfl : (line, n) :: records = rest := hsplit
      cases hfold
      cases hadded
      cases hstop with
      | limit hpos hn => exact absurd hn (Int.ne_of_lt (hl hpos))
      | refused _ he =>
        rw [hi] at he
        cases he
    | cons p accepted =>
      obtain ⟨rfl, rfl⟩ := List.cons.inj hsplit
      rw [List.map_cons, List.foldlM_cons, hi] at hfold
      rw [List.length_cons] at hadded
      exact ⟨accepted, rest, rfl, hfold, by omega, hstop⟩
  · rintro ⟨accepted, rest, rfl, hfold, hadded, hstop⟩
    refine ⟨(line, n) :: accepted, rest, rfl, ?_, ?_, hstop⟩
    · rw [List.map_cons, List.foldlM_cons, hi]
      exact hfold
    · rw [List.length_cons]
      omega

theorem reads_limit_iff (hpos : 0 < limit) (hn : (added : Int) = limit) :
    Reads limit overlong scanned agg added records r ↔ r = ⟨agg, added, none⟩ := by
  constructor
  · rintro ⟨accepted, rest, -, hfold, hadded, hstop⟩
    obtain ⟨hmost, herror⟩ := hstop.of_pos hpos
    obtain rfl : accepted = [] := List.eq_nil_of_length_eq_zero (by omega)
    obtain ⟨agg', added', error⟩ := r
    cases hfold
    cases hadded
    cases herror hn
    rfl
  · rintro rfl
    exact ⟨[], records, rfl, rfl, rfl, .limit hpos hn⟩

/-! ## Line by line -/

section Steps

variable {read : Nat} {line : Text} {rest : List Text}

theorem readLines_blank (hb : line.isBlankText = true) :
    readLines limit overlong agg read added (line :: rest) =
      readLines limit overlong agg (read + 1) added rest := by
  rw [readLines, if_pos hb]

variable (hb : line.isBlankText = false)

include hb

theorem readLines_refused {e : FormatError} (hi : agg.ingest line = .error e) :
    readLines limit overlong agg read added (line :: rest) =
      ⟨agg, added, some (.format { e with line := (read + 1 : Nat) })⟩ := by
  rw [readLines, hb, hi]
  rfl

variable {next : Aggregate Float} (hi : agg.ingest line = .ok next)

include hi

theorem readLines_reached (hlimit : 0 < limit ∧ limit ≤ (added + 1 : Nat)) :
    readLines limit overlong agg read added (line :: rest) = ⟨next, added + 1, none⟩ := by
  rw [readLines, hb, hi]
  exact if_pos hlimit

theorem readLines_accepted (hlimit : ¬ (0 < limit ∧ limit ≤ (added + 1 : Nat))) :
    readLines limit overlong agg read added (line :: rest) =
      readLines limit overlong next (read + 1) (added + 1) rest := by
  rw [readLines, hb, hi]
  exact if_neg hlimit

end Steps

/-- **Lines.**  The induction is on the lines still to be read; `read` lines were
before them. -/
theorem readLines_eq_iff (hl : Below limit added) (read : Nat) (lines : List Text) :
    readLines limit overlong agg read added lines = r ↔
      Reads limit overlong (read + lines.length) agg added (Text.recordsFrom read lines) r := by
  induction lines generalizing agg read added with
  | nil =>
    rw [readLines, eq_comm]
    exact (reads_nil_iff hl).symm
  | cons line rest ih =>
    have hscanned : read + (line :: rest).length = read + 1 + rest.length := by
      rw [List.length_cons]
      omega
    rw [hscanned]
    cases hb : line.isBlankText with
    | true =>
      rw [readLines_blank hb, Text.recordsFrom_blank hb]
      exact ih hl (read + 1)
    | false =>
      rw [Text.recordsFrom_record hb]
      cases hi : agg.ingest line with
      | error e => rw [readLines_refused hb hi, reads_refused_iff hl hi, eq_comm]
      | ok next =>
        rw [reads_accepted_iff hl hi]
        by_cases hlimit : 0 < limit ∧ limit ≤ (added + 1 : Nat)
        · have hreached : ((added + 1 : Nat) : Int) = limit := by
            have := hl hlimit.1
            omega
          rw [readLines_reached hb hi hlimit, reads_limit_iff hlimit.1 hreached, eq_comm]
        · rw [readLines_accepted hb hi hlimit]
          exact ih (fun hpos => by omega) (read + 1)

/-- The line of the record that reaches the limit is the last one that is looked
at. -/
theorem readLines_take (hpos : 0 < limit) (hl : (added : Int) < limit) (read : Nat)
    (lines : List Text)
    (hn : ((readLines limit overlong agg read added lines).added : Int) = limit) :
    ∃ line n, (Text.recordsFrom read lines)[limit.toNat - 1 - added]? = some (line, n) ∧ read < n ∧
      ∀ overlong' more, readLines limit overlong' agg read added (lines.take (n - read) ++ more) =
        readLines limit overlong agg read added lines := by
  induction lines generalizing agg read added with
  | nil => exact absurd hn (Int.ne_of_lt hl)
  | cons line rest ih =>
    have htaken {n : Nat} (h : read < n) (more : List Text) :
        (line :: rest).take (n - read) ++ more =
          line :: (rest.take (n - (read + 1)) ++ more) := by
      rw [show n - read = n - (read + 1) + 1 by omega, List.take_succ_cons, List.cons_append]
    cases hb : line.isBlankText with
    | true =>
      rw [readLines_blank hb] at hn ⊢
      obtain ⟨line', n, hrecord, hread, htake⟩ := ih hl (read + 1) hn
      refine ⟨line', n, by rwa [Text.recordsFrom_blank hb], by omega, ?_⟩
      intro overlong' more
      rw [htaken (by omega), readLines_blank hb, htake]
    | false =>
      rw [Text.recordsFrom_record hb]
      cases hi : agg.ingest line with
      | error e =>
        rw [readLines_refused hb hi] at hn
        exact absurd hn (Int.ne_of_lt hl)
      | ok next =>
        by_cases hlimit : 0 < limit ∧ limit ≤ (added + 1 : Nat)
        · have hfirst : limit.toNat - 1 - added = 0 := by omega
          refine ⟨line, read + 1, by rw [hfirst]; rfl, Nat.lt_succ_self read, ?_⟩
          intro overlong' more
          rw [htaken (Nat.lt_succ_self read), readLines_reached hb hi hlimit,
            readLines_reached hb hi hlimit]
        · have hlater : limit.toNat - 1 - added = limit.toNat - 1 - (added + 1) + 1 := by omega
          rw [readLines_accepted hb hi hlimit] at hn ⊢
          obtain ⟨line', n, hrecord, hread, htake⟩ := ih (by omega) (read + 1) hn
          refine ⟨line', n, by rwa [hlater], by omega, ?_⟩
          intro overlong' more
          rw [htaken (by omega), readLines_accepted hb hi hlimit, htake]

/-! ## Whole texts -/

theorem readFrom_eq (agg : Aggregate Float) (t : Text) (limit : Int) : agg.readFrom t limit =
    readLines limit t.hasOverlong agg 0 0 t.scannedLines := by
  rw [readFrom, Text.lines_eq]
  rfl

/-- **Reading is a bounded fold.**  The records of a text are its lines with at
least one field, numbered as lines. Reading ingests them in order and counts
them, up to the first of these: the limit is reached, a record is refused and the
error has its line number, a line does not fit and is named as the one behind the
last that was read, or the text ends. Nothing else is the outcome. If the limit is
reached, any other text with the same lines up to that record is read alike,
whatever comes behind it. -/
theorem readFrom_bounded_fold (agg : Aggregate Float) (t : Text) (limit : Int) :
    (∀ r, agg.readFrom t limit = r ↔
      ∃ accepted rest, t.numberedRecords = accepted ++ rest ∧
        (accepted.map Prod.fst).foldlM ingest agg = .ok r.aggregate ∧
        r.added = accepted.length ∧
        Stop limit t.hasOverlong t.scannedLines.length r.aggregate r.added rest r.error) ∧
    (0 < limit → ((agg.readFrom t limit).added : Int) = limit →
      ∃ line n, t.numberedRecords[limit.toNat - 1]? = some (line, n) ∧
        ∀ t' : Text, t'.physicalLines.take n = t.physicalLines.take n →
          agg.readFrom t' limit = agg.readFrom t limit) := by
  constructor
  · intro r
    rw [readFrom_eq, readLines_eq_iff (fun hpos => hpos) 0 t.scannedLines, Reads]
    simp only [Nat.zero_add]
    rfl
  · intro hpos hn
    rw [readFrom_eq] at hn
    obtain ⟨line, n, hrecord, -, htake⟩ := readLines_take hpos hpos 0 t.scannedLines hn
    refine ⟨line, n, hrecord, ?_⟩
    intro t' hsame
    have hscanned : t'.scannedLines.take n = t.scannedLines.take n := by
      simp only [Text.scannedLines, Text.scan, ← List.map_take, List.take_takeWhile, hsame]
    rw [readFrom_eq, readFrom_eq, ← htake t'.hasOverlong (t'.scannedLines.drop n), Nat.sub_zero,
      ← hscanned, List.take_append_drop]

/-- Two records with a blank line between them, and a word that is refused. -/
def spaced : Text := "1\r\n \n2\nx\n"

theorem readFrom_bounded_fold_spaced :
    ((Aggregate.fresh 1 .integer).readFrom spaced 2).added = 2 ∧
    ∀ t : Text, t.physicalLines.take 3 = [[49, 13], [32], [50]] →
      (Aggregate.fresh 1 .integer).readFrom t 2 =
        (Aggregate.fresh 1 .integer).readFrom spaced 2 := by
  have hadded : ((Aggregate.fresh 1 .integer).readFrom spaced 2).added = 2 := rfl
  obtain ⟨line, n, hrecord, htake⟩ :=
    (readFrom_bounded_fold (.fresh 1 .integer) spaced 2).2 (by decide) (by rw [hadded]; rfl)
  have hn : spaced.numberedRecords[1]? = some ([50], 3) := by decide
  obtain ⟨-, rfl⟩ : (line, n) = ([50], 3) := Option.some.inj (hrecord.symm.trans hn)
  exact ⟨hadded, htake⟩

end Aggregate

end PerfReport
