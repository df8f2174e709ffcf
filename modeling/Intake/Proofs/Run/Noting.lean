import Intake.Proofs.Writer.Course
import Intake.Run.Loader
/-!
# Noting what a run asks of its writer

To say what a writer was given, its calls are noted (`Writer.noting`).
That changes nothing about the run (`Loader.run_noting`): it comes to the
same, and leaves the writer and the site in the same states. The loop is
by induction on its fuel; everything around it looks at the writer once.
-/

namespace Intake
namespace Loader

variable {σ : Type}

/-- A state without the calls that have been noted. -/
def State.bare (st : State (σ × List Call)) : State σ := ⟨st.writer.1, st.rejects, st.site⟩

/-- Noting the calls of a writer changes nothing in the loop. -/
theorem records_noting (w : Writer σ) (rules : Rules) (fuel : Nat) (left : Option Nat)
    (reader : RecordReader) (row : Row) (st : State (σ × List Call)) :
    records w rules fuel left reader row st.bare
      = ((records w.noting rules fuel left reader row st).1,
        (records w.noting rules fuel left reader row st).2.bare) := by
  induction fuel generalizing left reader row st with
  | zero => rfl
  | succ fuel ih =>
    obtain ⟨⟨x, calls⟩, rejects, site⟩ := st
    simp only [records, State.bare]
    by_cases hleft : left = some 0
    · rw [if_pos hleft, if_pos hleft]
    rw [if_neg hleft, if_neg hleft]
    cases site.token.pending with
    | some kind => rfl
    | none =>
      rcases reader.next with ⟨e | _ | record, reader⟩
      · rfl
      · rfl
      · dsimp only
        rcases rejects.absorb record.number record.raw (rules.attempt record row).outcome
          (site.request (rules.attempt record row).requests) with ⟨e | _ | _, rejects, site⟩
        · rfl
        · exact ih (left.map (· - 1)) reader _ ⟨(x, calls), rejects, site⟩
        · dsimp only
          rcases hinsert : w.insert x (rules.attempt record row).row record.raw site with
            ⟨outcome, x', site'⟩
          rw [Writer.noting_insert (x := (x, calls)) hinsert]
          cases outcome with
          | error e => rfl
          | ok _ => exact ih (left.map (· - 1)) reader _ ⟨(x', _), rejects, site'⟩

theorem finish_noting (w : Writer σ) (st : State (σ × List Call)) :
    finish w st.bare = ((finish w.noting st).1, (finish w.noting st).2.bare) := by
  rcases hclose : w.close st.writer.1 false (st.rejects.flush st.site).2 with ⟨last, x, site⟩
  rw [finish_of_close (Writer.noting_close hclose)]
  exact finish_of_close hclose

theorem abandon_noting (w : Writer σ) (st : State (σ × List Call)) :
    abandon w st.bare = ((abandon w.noting st).1, (abandon w.noting st).2.bare) := by
  rcases hclose : w.close st.writer.1 true (st.rejects.flush st.site).2 with ⟨last, x, site⟩
  rw [abandon_of_close (Writer.noting_close hclose)]
  exact abandon_of_close hclose

theorem load_noting (l : Loader) (w : Writer σ) (source : Source) (st : State (σ × List Call)) :
    l.load w source st.bare = ((l.load w.noting source st).1, (l.load w.noting source st).2.1,
      (l.load w.noting source st).2.2.bare) := by
  unfold load
  rcases RecordReader.start source l.options l.schema with e | reader
  · rfl
  · obtain ⟨x, rejects, site⟩ := st
    simp only [State.bare]
    cases site.token.pending with
    | some kind => rfl
    | none =>
      rcases reader.skip l.options.skip with ⟨e | skipped, reader⟩
      · rfl
      · exact congrArg (skipped, ·) (records_noting w l.rules (bound source) l.options.limit reader
          (Row.blank l.schema.width) ⟨x, rejects, site⟩)

/-- **Noting the calls of a writer changes nothing about a run.** -/
theorem run_noting (l : Loader) (w : Writer σ) (source : Source) (x : σ × List Call) (s : Site) :
    l.run w source x.1 s = ((l.run w.noting source x s).1, (l.run w.noting source x s).2.1.1,
      (l.run w.noting source x s).2.2) := by
  have hload := l.load_noting w source ⟨x, l.rejects, l.observers (.started l.context) s⟩
  unfold run
  dsimp only
  rw [show (⟨x.1, l.rejects, l.observers (.started l.context) s⟩ : State σ)
    = State.bare ⟨x, l.rejects, l.observers (.started l.context) s⟩ from rfl, hload]
  rcases l.load w.noting source ⟨x, l.rejects, l.observers (.started l.context) s⟩ with
    ⟨skipped, e | _, st⟩
  · dsimp only
    rw [abandon_noting]
    rfl
  · dsimp only
    rw [finish_noting]
    rcases finish w.noting st with ⟨e | counts, st⟩
    · dsimp only
      rw [abandon_noting]
      rfl
    · rfl
end Loader
end Intake
