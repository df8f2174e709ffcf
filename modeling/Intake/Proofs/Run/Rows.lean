import Intake.Proofs.Conversion.Default
import Intake.Proofs.Run.Trace
import Intake.Writer.Local
/-!
# The rows of a run

Whatever is read, rejected or refused in a run, each row that its writer
is given fits the schema and is UTF-8 (`Loader.run_wellFormed`). Nothing is
asked of the writer, the source, the catalog or the observer, and a run
that fails has given no other rows until then.

A row of a record that ends early has defaults in the columns behind
(`Loader.run_default`). In a run of Latin-1 that is not what was configured
where a default has other characters than ASCII: it is UTF-8, and becomes
UTF-8 once more (`Loader.run_default_twice`).
-/

namespace Intake
namespace Loader

variable {σ : Type}

/-- **Every row that a run gives to its writer is well formed**, the ones
that the writer refuses among them. -/
theorem run_wellFormed {l : Loader} (htranscoder : l.transcoder = .known) (w : Writer σ)
    (source : Source) (writer : σ) (s : Site) {entry : Entry}
    (hgiven : entry ∈ Call.given (l.run w.noting source (writer, []) s).2.1.2) :
    entry.1.WellFormed l.schema := by
  obtain ⟨xs, heq⟩ := l.run_given w source writer [] s
  rw [heq] at hgiven
  have hsound : l.rules.transcoder.Sound := by
    rw [show l.rules.transcoder = .known from htranscoder]
    exact Transcoder.sound_known
  exact Rules.wellFormed_acceptedRows hsound hgiven

/-- A load of Latin-1 into a column that refuses NULL and one with a
default. -/
def named : Loader where
  options := { encoding := .latin1, parseErrors := .unlimited }
  schema := ⟨[{ name := "a", type := .int32, notNull := true },
    { name := "b", type := .text, default := some (.ofString "ö") }]⟩

/-- Of four records one lacks its number and one has too many fields; the
default is taken for Latin-1 like any text. -/
theorem run_wellFormed_named :
    let input := Bytes.ascii "1,caf" ++ [0xE9, 0x0A] ++ Bytes.ascii ",x\n2\n3,y,z\n"
    let run := named.run LocalWriter.writer.noting (.bytes { rest := input, cuts := [] })
      (({ storage := { medium := .table {} },
          duplicates := { policy := .keepNew, limit := .limited 0 } } : LocalWriter), []) {}
    named.transcoder = .known ∧
      (Call.given run.2.1.2).map Prod.fst
        = [.ofValues [.int32 1, .ofString "café"], .ofValues [.int32 2, .ofString "Ã¶"]] ∧
      ∀ entry ∈ Call.given run.2.1.2, entry.1.WellFormed named.schema := by
  intro input run
  exact ⟨rfl, by decide +kernel, fun entry h => run_wellFormed rfl _ _ _ _ h⟩

/-! ## Defaults -/

/-- **Behind the last field of a record, its row has the defaults as they
are stored.** That is the default that is configured exactly if the input
is not Latin-1 or the default is no text with other characters than ASCII. -/
theorem run_default {l : Loader} (htranscoder : l.transcoder = .known) {source : Source}
    {reader : RecordReader} (hstart : RecordReader.start source l.options l.schema = .ok reader)
    (w : Writer σ) (writer : σ) (s : Site) :
    ∃ xs, l.Attempts reader xs ∧
      Call.given (l.run w.noting source (writer, []) s).2.1.2 = l.rules.acceptedRows xs ∧
      ∀ x ∈ xs, l.rules.accepts x = true → ∀ (i : Nat) (column : Column),
        x.fields.length ≤ i → l.schema.columns[i]? = some column →
        ∃ v, column.default = some v ∧
          (l.rules.judge x).row.Holds i (v.stored l.options.encoding) ∧
          ((l.rules.judge x).row.Holds i v ↔ v.Kept l.options.encoding) := by
  obtain ⟨xs, hattempts, hgiven⟩ :=
    load_given_of_start hstart w ⟨(writer, []), l.rejects, l.observers (.started l.context) s⟩
  refine ⟨xs, hattempts, (l.given_run w source writer [] s).trans hgiven,
    fun x _ haccepts i column hi hcolumn => ?_⟩
  obtain ⟨v, hdefault, hholds⟩ :=
    Rules.judge_default (r := l.rules) htranscoder haccepts hi hcolumn
  refine ⟨v, hdefault, hholds, ?_⟩
  rw [← Value.stored_eq_self_iff]
  constructor
  · intro hsame
    exact Option.some.inj (hholds.value.symm.trans hsame.value)
  · intro hkept
    rw [← hkept]
    exact hholds

/-- A load of Latin-1 into three columns, of which the last two have
defaults. -/
def labelled : Loader where
  options := { encoding := .latin1 }
  schema := ⟨[{ name := "a", type := .text },
    { name := "b", type := .text, default := some (.ofString "new") },
    { name := "c", type := .int32, default := some (.int32 0) }]⟩

/-- These defaults are kept, beside text that is not ASCII. -/
theorem run_default_labelled :
    let source : Source := .bytes { rest := [0xE9, 0x0A] ++ Bytes.ascii "x,y\n", cuts := [] }
    let writer : LocalWriter := { storage := { medium := .table {} },
                                  duplicates := { policy := .keepNew, limit := .limited 0 } }
    let given := Call.given (labelled.run LocalWriter.writer.noting source (writer, []) {}).2.1.2
    labelled.transcoder = .known ∧
      (∀ column ∈ labelled.schema.columns, ∀ v, column.default = some v → v.Kept .latin1) ∧
      given.map Prod.fst
        = [.ofValues [.ofString "é", .ofString "new", .int32 0],
            .ofValues [.ofString "x", .ofString "y", .int32 0]] ∧
      ∃ reader, RecordReader.start source labelled.options labelled.schema = .ok reader ∧
        ∃ xs, labelled.Attempts reader xs ∧ given = labelled.rules.acceptedRows xs ∧
          ∀ x ∈ xs, labelled.rules.accepts x = true → ∀ (i : Nat) (column : Column),
            x.fields.length ≤ i → labelled.schema.columns[i]? = some column →
            ∃ v, column.default = some v ∧ (labelled.rules.judge x).row.Holds i v := by
  intro source writer given
  have hkept : ∀ column ∈ labelled.schema.columns, ∀ v, column.default = some v →
      v.Kept .latin1 := by
    intro column hcolumn v hdefault hlatin bs heq
    simp only [labelled, List.mem_cons, List.not_mem_nil, or_false] at hcolumn
    subst heq
    rcases hcolumn with rfl | rfl | rfl
    · cases hdefault
    · cases hdefault
      decide +kernel
    · cases hdefault
  refine ⟨rfl, hkept, by decide +kernel, ?_⟩
  obtain ⟨reader, hstart⟩ : ∃ reader,
      RecordReader.start source labelled.options labelled.schema = .ok reader := ⟨_, rfl⟩
  obtain ⟨xs, hattempts, hgiven, hdefault⟩ := run_default (l := labelled) rfl hstart
    LocalWriter.writer writer {}
  refine ⟨reader, hstart, xs, hattempts, hgiven, fun x hx haccepts i column hi hcolumn => ?_⟩
  obtain ⟨v, hv, -, hholds⟩ := hdefault x hx haccepts i column hi hcolumn
  exact ⟨v, hv, hholds.mpr (hkept column (List.mem_of_getElem? hcolumn) v hv)⟩

/-- **A default is not always kept.** In a load of Latin-1 the default "ö",
which is UTF-8, arrives as the two characters that its bytes are. -/
theorem run_default_twice :
    let given := Call.given (named.run LocalWriter.writer.noting
      (.bytes { rest := Bytes.ascii "2\n", cuts := [] })
      (({ storage := { medium := .table {} },
          duplicates := { policy := .keepNew, limit := .limited 0 } } : LocalWriter), []) {}).2.1.2
    named.transcoder = .known ∧ Utf8.isText (Bytes.ofString "ö") = true ∧
      (named.schema.columns[1]?.bind Column.default) = some (.ofString "ö") ∧
      given.map (fun entry => entry.1.values[1]?) = [some (.ofString "Ã¶")] ∧
      Value.ofString "Ã¶" ≠ Value.ofString "ö" := by
  intro given
  exact ⟨rfl, by decide +kernel, rfl, by decide +kernel, by decide +kernel⟩

end Loader
end Intake
