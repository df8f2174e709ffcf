import Intake.Proofs.Conversion.Attempt
/-!
# Records over which a run is asked to stop

A catalog may answer, instead of with a value or a refusal, that the run is
to stop. It is asked for the value of a field if the record fits the schema
and all fields before have been stored, and for its consent to the row if
all that is checked besides holds. `Rules.Interrupts` says that it answers
so in one of these places, and an attempt at the record ends in an
interrupt exactly then (`Rules.interrupted_iff`): no interrupt becomes a
rejection, and nothing else becomes an interrupt.
-/

namespace Intake

namespace Catalog

/-- A field that can be stored: NULL, character data, or something that
there is a value for. -/
def Stores (catalog : Catalog) (column : Column) (f : Field) : Prop :=
  ∀ bs, f.content? = some bs → column.type.isCharacter = false →
    ∃ v, (catalog.read column bs).answer = .ok v

/-- A field whose value the catalog is asked for, and answers that the run
is to stop. -/
def Stops (catalog : Catalog) (kind : Interrupt) (column : Column) (f : Field) : Prop :=
  ∃ bs, f.content? = some bs ∧ column.type.isCharacter = false ∧
    (catalog.read column bs).answer = .error (.interrupted kind)

end Catalog

/-- The catalog answers that the run is to stop over a record. -/
inductive Rules.Interrupts (r : Rules) (x : Record) (kind : Interrupt) : Prop where
  /-- It is asked for the value of a field. -/
  | read {before after : List (Column × Field)} {column : Column} {f : Field}
      (whole : x.shortfall = none) (fits : x.fields.length ≤ r.schema.width)
      (fields : r.schema.columns.zip x.fields = before ++ (column, f) :: after)
      (stored : ∀ p ∈ before, r.catalog.Stores p.1 p.2) (stops : r.catalog.Stops kind column f)
  /-- It is asked for its consent to a row that breaks no other rule. -/
  | check {row : Row} {requests : List Interrupt} {values : List Value}
      (built : (Row.blank r.schema.width).build r.schema r.catalog x = ⟨.ok (), row, requests⟩)
      (stored : r.storeValues x.number 0 row.values = (.ok (), values))
      (nulls : r.nullViolation? { row with values := values } = none)
      (asked : r.checkConstraints = true)
      (answer : (r.catalog.check r.schema { row with values := values }).answer
        = .error (.interrupted kind))

namespace Row

variable {catalog : Catalog} {record : Nat} {column : Column} {f : Field} {kind : Interrupt}

/-- What storing a field comes to. -/
theorem putField_ok_iff (row : Row) (catalog : Catalog) (record i : Nat) (column : Column)
    (f : Field) :
    (row.putField catalog record i column f).outcome = .ok () ↔ catalog.Stores column f := by
  unfold putField Catalog.Stores
  cases hcontent : f.content? with
  | none => exact ⟨fun _ => nofun, fun _ => rfl⟩
  | some bs =>
    dsimp only
    cases htyped : column.type.isCharacter with
    | true => exact ⟨fun _ => nofun, fun _ => rfl⟩
    | false =>
      rw [if_neg Bool.false_ne_true]
      cases hanswer : (catalog.read column bs).answer with
      | ok v =>
        refine ⟨fun _ bs' hbs' _ => ?_, fun _ => rfl⟩
        obtain rfl := Option.some.inj hbs'
        exact ⟨v, hanswer⟩
      | error e =>
        refine ⟨nofun, fun h => ?_⟩
        obtain ⟨v, hv⟩ := h bs rfl rfl
        cases hanswer.symm.trans hv

theorem putField_fatal_iff (row : Row) (catalog : Catalog) (record i : Nat) (column : Column)
    (f : Field) (kind : Interrupt) :
    (row.putField catalog record i column f).outcome = .error (.fatal (.interrupted kind))
      ↔ catalog.Stops kind column f := by
  unfold putField Catalog.Stops
  cases hcontent : f.content? with
  | none => exact ⟨nofun, fun ⟨_, h, _⟩ => nomatch h⟩
  | some bs =>
    dsimp only
    cases htyped : column.type.isCharacter with
    | true => exact ⟨nofun, fun ⟨_, _, h, _⟩ => nomatch h⟩
    | false =>
      rw [if_neg Bool.false_ne_true]
      have hiff : (∃ bs', some bs = some bs' ∧ false = false ∧
          (catalog.read column bs').answer = .error (.interrupted kind))
          ↔ (catalog.read column bs).answer = .error (.interrupted kind) :=
        ⟨fun ⟨_, hbs, _, h⟩ => Option.some.inj hbs ▸ h, fun h => ⟨bs, rfl, rfl, h⟩⟩
      rw [hiff]
      cases hanswer : (catalog.read column bs).answer with
      | ok v => exact ⟨nofun, nofun⟩
      | error e =>
        -- only an interrupt is passed on as one
        cases e <;> simp [RowError.ofStorage, RowError.ofParse]

/-- Storing fields ends in an interrupt at the field over which the catalog
asks for it, all before being stored; by induction on those. -/
theorem putFields_of_stops {before after : List (Column × Field)}
    (hstored : ∀ p ∈ before, catalog.Stores p.1 p.2) (hstops : catalog.Stops kind column f)
    {columns : List Column} {fields : List Field}
    (hzip : columns.zip fields = before ++ (column, f) :: after) (row : Row) (i : Nat)
    (requests : List Interrupt) :
    (row.putFields catalog record i columns fields requests).outcome
      = .error (.fatal (.interrupted kind)) := by
  induction before generalizing columns fields row i requests with
  | nil =>
    rcases columns with _ | ⟨column', columns⟩
    · cases hzip
    rcases fields with _ | ⟨f', fields⟩
    · cases hzip
    obtain ⟨heq, -⟩ := List.cons.inj hzip
    cases heq
    have houtcome := (row.putField_fatal_iff catalog record i column f kind).mpr hstops
    rw [putFields_cons, putNext]
    generalize row.putField catalog record i column f = attempt at houtcome ⊢
    obtain ⟨outcome, row', asked⟩ := attempt
    cases houtcome
    rfl
  | cons p before ih =>
    rcases columns with _ | ⟨column', columns⟩
    · cases hzip
    rcases fields with _ | ⟨f', fields⟩
    · cases hzip
    obtain ⟨heq, hrest⟩ := List.cons.inj hzip
    obtain rfl : (column', f') = p := heq
    obtain ⟨hfirst, hbefore⟩ := List.forall_mem_cons.mp hstored
    have houtcome := (row.putField_ok_iff catalog record i column' f').mpr hfirst
    rw [putFields_cons, putNext]
    generalize row.putField catalog record i column' f' = attempt at houtcome ⊢
    obtain ⟨outcome, row', asked⟩ := attempt
    cases houtcome
    exact ih hbefore hrest row' (i + 1) (requests ++ asked)

/-- It ends in an interrupt in no other way; by induction on the columns. -/
theorem stops_of_putFields {columns : List Column} {fields : List Field} {row : Row} {i : Nat}
    {requests : List Interrupt}
    (h : (row.putFields catalog record i columns fields requests).outcome
      = .error (.fatal (.interrupted kind))) :
    ∃ before column f after, columns.zip fields = before ++ (column, f) :: after ∧
      (∀ p ∈ before, catalog.Stores p.1 p.2) ∧ catalog.Stops kind column f := by
  induction columns generalizing fields row i requests with
  | nil => cases h
  | cons column columns ih =>
    cases fields with
    | nil =>
      -- no field is left, so there is nothing to ask the catalog for
      rw [putFields_cons, putNext, putDefault] at h
      cases hdefault : column.default with
      | none =>
        rw [hdefault] at h
        cases h
      | some v =>
        rw [hdefault] at h
        obtain ⟨before, _, _, after, hzip, -⟩ := ih h
        rw [List.tail_nil, List.zip_nil_right] at hzip
        exact absurd hzip.symm (by simp)
    | cons f fields =>
      rw [putFields_cons, putNext] at h
      have hok := row.putField_ok_iff catalog record i column f
      have hfatal := row.putField_fatal_iff catalog record i column f kind
      generalize row.putField catalog record i column f = attempt at h hok hfatal
      obtain ⟨e | _, row', asked⟩ := attempt
      · exact ⟨[], column, f, columns.zip fields, rfl, List.forall_mem_nil _, hfatal.mp h⟩
      · obtain ⟨before, column', f', after, hzip, hstored, hstops⟩ := ih h
        refine ⟨(column, f) :: before, column', f', after, ?_, ?_, hstops⟩
        · exact congrArg ((column, f) :: ·) hzip
        · exact List.forall_mem_cons.mpr ⟨hok.mp rfl, hstored⟩

end Row

namespace Rules

variable {r : Rules} {x : Record} {kind : Interrupt}

/-- Checking a row ends in an interrupt exactly if the catalog asks for it,
having been asked. -/
theorem validate_interrupted_iff {record : Nat} {row : Row} :
    (r.validate record row).outcome = .error (.fatal (.interrupted kind)) ↔
      ∃ values, r.storeValues record 0 row.values = (.ok (), values) ∧
        r.nullViolation? { row with values := values } = none ∧ r.checkConstraints = true ∧
        (r.catalog.check r.schema { row with values := values }).answer
          = .error (.interrupted kind) := by
  constructor
  · intro h
    have hvalidated := r.validated record row
    generalize r.validate record row = checked at h hvalidated
    cases hvalidated with
    | unstored stored =>
      obtain ⟨rejection, hrejected⟩ := r.storeValues_rejected ((congrArg Prod.fst stored).trans h)
      cases hrejected
    | null => cases h
    | unasked => cases h
    | @answered values answer stored nulls asked answers =>
      refine ⟨values, stored, nulls, asked, answers.trans ?_⟩
      -- every other failure of the catalog is a rejection or another error
      cases answer with
      | ok _ => cases h
      | error e =>
        cases e with
        | interrupted =>
          cases h
          rfl
        | _ => cases h
  · rintro ⟨values, hstored, hnull, hasked, hanswer⟩
    rw [(Validated.answered hstored hnull hasked hanswer).eq]
    rfl

/-- Building a row ends in an interrupt exactly if the catalog asks for it
over a field of a record that fits. -/
theorem build_interrupted_iff (row : Row) (schema : Schema) (catalog : Catalog) (x : Record)
    (kind : Interrupt) :
    (row.build schema catalog x).outcome = .error (.fatal (.interrupted kind)) ↔
      x.shortfall = none ∧ x.fields.length ≤ schema.width ∧
        ∃ before column f after, schema.columns.zip x.fields = before ++ (column, f) :: after ∧
          (∀ p ∈ before, catalog.Stores p.1 p.2) ∧ catalog.Stops kind column f := by
  unfold Row.build
  cases x.shortfall with
  | some s => exact ⟨nofun, fun h => nomatch h.1⟩
  | none =>
    dsimp only
    split
    · next hlong => exact ⟨nofun, fun h => absurd h.2.1 (Nat.not_le_of_lt hlong)⟩
    · next hfits =>
      refine ⟨fun h => ⟨rfl, Nat.le_of_not_lt hfits, Row.stops_of_putFields h⟩, ?_⟩
      rintro ⟨-, -, before, column, f, after, hzip, hstored, hstops⟩
      exact Row.putFields_of_stops hstored hstops hzip _ _ _

/-- **An attempt ends in an interrupt exactly if the catalog asks for it.** -/
theorem interrupted_iff :
    (r.judge x).outcome = .error (.fatal (.interrupted kind)) ↔ r.Interrupts x kind := by
  have hbuild := build_interrupted_iff (Row.blank r.schema.width) r.schema r.catalog x kind
  constructor
  · intro h
    unfold judge attempt at h
    generalize hbuilt : (Row.blank r.schema.width).build r.schema r.catalog x = built at h hbuild
    obtain ⟨e | _, row, requests⟩ := built
    · obtain ⟨hwhole, hfits, before, column, f, after, hzip, hstored, hstops⟩ := hbuild.mp h
      exact .read hwhole hfits hzip hstored hstops
    · obtain ⟨values, hstored, hnull, hasked, hanswer⟩ := validate_interrupted_iff.mp h
      exact .check hbuilt hstored hnull hasked hanswer
  · intro h
    cases h with
    | read whole fits fields stored stops =>
      have houtcome := hbuild.mpr ⟨whole, fits, _, _, _, _, fields, stored, stops⟩
      unfold judge attempt
      generalize (Row.blank r.schema.width).build r.schema r.catalog x = built at houtcome ⊢
      obtain ⟨outcome, row, requests⟩ := built
      cases houtcome
      rfl
    | check built stored nulls asked answer =>
      unfold judge attempt
      rw [built]
      exact validate_interrupted_iff.mpr ⟨_, stored, nulls, asked, answer⟩

end Rules
end Intake
