import PerfReport.Proofs.Aggregate.Update

/-!
# Reading to the end

A log is read to its end if all of its lines fit the buffer and every line
that is not blank is accepted; the aggregate is then the fold of these lines.
A log that ends with a newline says nothing about what follows it, so that
logs can be read as one.

* `Text.lines_append`, `Text.lines_flatten`: the lines of texts put together;
* `Aggregate.readFrom_eq_ok_iff`: when a log is read to its end.
-/

namespace PerfReport

/-! ## Lines of texts put together -/

theorem linesFrom_done (t : Text) (room : Nat) (current : Text) (done : List Text) :
    linesFrom t room current done =
      ⟨done.reverse ++ (linesFrom t room current []).complete,
        (linesFrom t room current []).overlong⟩ := by
  induction t generalizing room current done with
  | nil =>
    simp only [linesFrom]
    split <;> simp
  | cons b t ih =>
    simp only [linesFrom]
    split
    · rw [ih lineRoom [] (finishLine current :: done), ih lineRoom [] [finishLine current]]
      simp
    · cases room with
      | zero => simp
      | succ room => exact ih room (b :: current) done

namespace Text

/-- No line is left open. -/
def Closed (t : Text) : Prop := t = [] ∨ t.getLast? = some 10

instance (t : Text) : Decidable t.Closed := inferInstanceAs (Decidable (_ ∨ _))

end Text

/-- Lines after a newline do not depend on those before it; an overlong line
hides all that follows. -/
theorem linesFrom_append (f g : Text) (hf : f.getLast? = some 10) (room : Nat) (current : Text)
    (done : List Text) : linesFrom (f ++ g) room current done =
      if (linesFrom f room current done).overlong then linesFrom f room current done
      else ⟨(linesFrom f room current done).complete ++ g.lines.complete, g.lines.overlong⟩ := by
  induction f generalizing room current done with
  | nil => cases hf
  | cons b t ih =>
    simp only [List.cons_append, linesFrom]
    by_cases hb : b = 10
    · simp only [hb, if_true]
      cases t with
      | nil =>
        rw [List.nil_append, linesFrom_done]
        simp [linesFrom, Text.lines]
      | cons c t => exact ih (by simpa using hf) lineRoom [] (finishLine current :: done)
    · simp only [hb, if_false]
      cases t with
      | nil => exact absurd (Option.some.inj hf) hb
      | cons c t =>
        cases room with
        | zero => rfl
        | succ room => exact ih (by simpa using hf) room (b :: current) done

namespace Text

theorem lines_append {f : Text} (hf : f.Closed) (g : Text) :
    (f ++ g).lines = if f.lines.overlong then f.lines
      else ⟨f.lines.complete ++ g.lines.complete, g.lines.overlong⟩ := by
  rcases hf with rfl | hf
  · rfl
  · exact linesFrom_append f g hf lineRoom [] []

/-- The lines that hold a record. -/
def recordLines (t : Text) : List Text := t.lines.complete.filter fun line => !line.isBlankText

/-- Every line fits the buffer. -/
def Fitting (t : Text) : Prop := t.lines.overlong = false

instance (t : Text) : Decidable t.Fitting := inferInstanceAs (Decidable (_ = _))

/-- **Texts read as one.**  They are the lines of each, if all of them fit. -/
theorem lines_flatten {texts : List Text} (hc : ∀ t ∈ texts, t.Closed)
    (hf : Fitting texts.flatten) : (∀ t ∈ texts, t.Fitting) ∧
      recordLines texts.flatten = (texts.map recordLines).flatten := by
  induction texts with
  | nil => exact ⟨nofun, rfl⟩
  | cons t ts ih =>
    have happend := lines_append (hc t (List.mem_cons_self ..)) ts.flatten
    rw [Fitting, List.flatten_cons] at hf
    cases ht : t.lines.overlong with
    | true =>
      rw [happend, if_pos ht, ht] at hf
      cases hf
    | false =>
      rw [if_neg (by simp [ht])] at happend
      rw [happend] at hf
      obtain ⟨hts, hlines⟩ := ih (fun t' ht' => hc t' (List.mem_cons_of_mem _ ht')) hf
      refine ⟨List.forall_mem_cons.mpr ⟨ht, hts⟩, ?_⟩
      rw [recordLines, List.flatten_cons, happend, List.filter_append, List.map_cons,
        List.flatten_cons, ← hlines]
      rfl

end Text

/-! ## Reading without a limit -/

namespace Aggregate

variable {agg agg' : Aggregate Float}

/-- The induction is on the lines still to be read. -/
theorem readLines_eq_ok_iff (overlong : Bool) (agg agg' : Aggregate Float) (read added : Nat)
    (lines : List Text) :
    ((readLines 0 overlong agg read added lines).error = none ∧
        (readLines 0 overlong agg read added lines).aggregate = agg') ↔
      overlong = false ∧ (lines.filter fun line => !line.isBlankText).foldlM ingest agg = .ok agg' := by
  induction lines generalizing agg read added with
  | nil => cases overlong <;> simp [readLines, pure, Except.pure]
  | cons line rest ih =>
    rw [readLines]
    cases hb : line.isBlankText with
    | true => simpa [hb] using ih agg (read + 1) added
    | false =>
      simp only [hb, Bool.false_eq_true, if_false, Bool.not_false, List.filter_cons_of_pos,
        List.foldlM_cons]
      cases hi : agg.ingest line with
      | error e => simp [bind, Except.bind]
      | ok next =>
        simp only [Int.lt_irrefl, false_and, if_false]
        exact ih next (read + 1) (added + 1)

/-- A log is read to its end if all of its lines fit and all of its records
are accepted. -/
theorem readFrom_eq_ok_iff (agg agg' : Aggregate Float) (t : Text) :
    ((agg.readFrom t 0).error = none ∧ (agg.readFrom t 0).aggregate = agg') ↔
      t.Fitting ∧ t.recordLines.foldlM ingest agg = .ok agg' :=
  readLines_eq_ok_iff t.lines.overlong agg agg' 0 0 t.lines.complete

end Aggregate

end PerfReport
