import Intake.Layout.Basic
/-!
# Fields that can be laid out

A list of fields becomes a layout exactly when the fields lie where they
can be addressed, within the record, and no two of them have a byte in
common (`Layout.ofFields_accepts_iff`); the layout has the fields as they
were given.

Overlaps are looked for between neighbours only, after the fields have
been put into the order of their places. That is enough because a field
has a byte at least: if each ends before the next one starts, then it ends
before every later one does (`Layout.firstOverlap?_eq_none_iff`).
-/

namespace Intake

namespace FieldSpec

/-- Whether a field has the byte at a place of the record. -/
def Covers (f : FieldSpec) (place : Nat) : Prop := f.offset ≤ place ∧ place < f.stop

/-- Two fields that have no byte in common. -/
def Apart (f g : FieldSpec) : Prop := ∀ place, ¬ (f.Covers place ∧ g.Covers place)

theorem Apart.symm {f g : FieldSpec} (h : f.Apart g) : g.Apart f :=
  fun place hboth => h place hboth.symm

/-- Of two fields that have bytes and none in common, one ends before the
other starts. -/
theorem apart_iff {f g : FieldSpec} :
    f.Apart g ↔ (0 < f.length ∧ 0 < g.length → f.stop ≤ g.offset ∨ g.stop ≤ f.offset) := by
  unfold Apart Covers stop
  constructor
  · -- The first byte of the field that starts later would be in both.
    intro h
    have hlater := h (max f.offset g.offset)
    omega
  · intro h place
    omega

instance (f g : FieldSpec) : Decidable (f.Apart g) := decidable_of_iff' _ apart_iff

end FieldSpec

namespace Layout

/-! ## What is checked -/

/-- The greatest of some numbers is no less than any. -/
theorem le_foldl_max {n : Nat} {ns : List Nat} {most : Nat} (h : n ≤ most ∨ n ∈ ns) :
    n ≤ ns.foldl max most := by
  induction ns generalizing most with
  | nil => exact h.resolve_right List.not_mem_nil
  | cons m ns ih =>
    refine ih ?_
    rcases h with h | h
    · exact .inl (Nat.le_trans h (Nat.le_max_left _ _))
    · rcases List.mem_cons.mp h with rfl | h
      · exact .inl (Nat.le_max_right _ _)
      · exact .inr h

/-- It is one of them, or the least it can be. -/
theorem foldl_max_mem (ns : List Nat) (most : Nat) :
    ns.foldl max most = most ∨ ns.foldl max most ∈ ns := by
  induction ns generalizing most with
  | nil => exact .inl rfl
  | cons m ns ih =>
    rw [List.foldl_cons]
    rcases ih (max most m) with h | h
    · rw [h]
      rcases Nat.le_total m most with hle | hle
      · exact .inl (Nat.max_eq_left hle)
      · rw [Nat.max_eq_right hle]
        exact .inr List.mem_cons_self
    · exact .inr (List.mem_cons_of_mem m h)

theorem stop_le_reach {fields : List FieldSpec} {f : FieldSpec} (hf : f ∈ fields) :
    f.stop ≤ reach fields := le_foldl_max (.inr (List.mem_map_of_mem hf))

/-- The fields reach as far as one of them. -/
theorem exists_stop_eq_reach {fields : List FieldSpec} (h : fields ≠ []) :
    ∃ f ∈ fields, f.stop = reach fields := by
  rcases foldl_max_mem (fields.map FieldSpec.stop) 0 with hzero | hmem
  · obtain ⟨f, fs, rfl⟩ := List.exists_cons_of_ne_nil h
    have hle : f.stop ≤ reach (f :: fs) := stop_le_reach List.mem_cons_self
    have hreach : reach (f :: fs) = 0 := hzero
    exact ⟨f, List.mem_cons_self, by omega⟩
  · exact List.mem_map.mp hmem

theorem reach_le_iff {fields : List FieldSpec} (h : fields ≠ []) {n : Nat} :
    reach fields ≤ n ↔ ∀ f ∈ fields, f.stop ≤ n := by
  constructor
  · exact fun hle f hf => Nat.le_trans (stop_le_reach hf) hle
  · intro hall
    obtain ⟨f, hf, heq⟩ := exists_stop_eq_reach h
    exact heq ▸ hall f hf

/-- What is checked of fields before they become a layout, and which
layout they become. -/
structure Made (fields : List FieldSpec) (stride : Option Nat) (layout : Layout) : Prop where
  some_field : fields ≠ []
  stop_le : ∀ f ∈ fields, f.stop ≤ maxPlace
  stride_pos : 0 < layout.stride
  reach_le : reach fields ≤ layout.stride
  ordered : firstOverlap? ((extents 1 fields).mergeSort Extent.before) = none
  eq : layout = ⟨fields, stride.getD (reach fields)⟩

theorem ofFields_eq_ok_iff {fields : List FieldSpec} {stride : Option Nat} {layout : Layout} :
    ofFields fields stride = .ok layout ↔ Made fields stride layout := by
  constructor
  · intro h
    unfold ofFields at h
    split at h
    · cases h
    next hsome =>
    split at h
    · cases h
    next hplaces =>
    dsimp only at h
    split at h
    · cases h
    next hpos =>
    split at h
    · cases h
    next hroom =>
    split at h
    · cases h
    next hordered =>
    cases h
    refine ⟨by simpa using hsome, fun f hf => ?_, Nat.pos_of_ne_zero hpos, Nat.le_of_not_lt hroom,
      hordered, rfl⟩
    simpa using List.findIdx?_eq_none_iff.mp hplaces f hf
  · rintro ⟨hsome, hplaces, hpos, hroom, hordered, rfl⟩
    have hnone : (fields.findIdx? fun f => maxPlace < f.stop) = none :=
      List.findIdx?_eq_none_iff.mpr fun f hf => decide_eq_false (Nat.not_lt.mpr (hplaces f hf))
    unfold ofFields
    rw [if_neg (by simpa using hsome), hnone]
    dsimp only
    rw [if_neg (Nat.ne_of_gt hpos), if_neg (Nat.not_lt.mpr hroom), hordered]

/-- Accepted fields end where there is a place and within the record. -/
theorem stop_le_of_ofFields {fields : List FieldSpec} {stride : Option Nat} {layout : Layout}
    (h : ofFields fields stride = .ok layout) {f : FieldSpec} (hf : f ∈ layout.fields) :
    f.stop ≤ maxPlace ∧ f.stop ≤ layout.stride := by
  obtain ⟨-, hplaces, -, hreach, -, rfl⟩ := ofFields_eq_ok_iff.mp h
  exact ⟨hplaces f hf, Nat.le_trans (stop_le_reach hf) hreach⟩

/-! ## Neighbours -/

/-- Of two extents one ends before the other starts. -/
def Extent.Apart (a b : Extent) : Prop := a.stop ≤ b.start ∨ b.stop ≤ a.start

theorem Extent.Apart.symm {a b : Extent} (h : a.Apart b) : b.Apart a := Or.symm h

/-- Extents in the order of their places are looked at pair after pair, and
no pair shares a byte exactly if no two extents do. -/
theorem firstOverlap?_eq_none_iff {xs : List Extent} (hsome : ∀ x ∈ xs, x.start < x.stop)
    (hsorted : xs.Pairwise fun a b => a.start ≤ b.start) :
    firstOverlap? xs = none ↔ xs.Pairwise Extent.Apart := by
  induction xs with
  | nil => exact ⟨fun _ => .nil, fun _ => rfl⟩
  | cons a xs ih =>
    obtain ⟨ha, hsome⟩ := List.forall_mem_cons.mp hsome
    obtain ⟨hfirst, hsorted⟩ := List.pairwise_cons.mp hsorted
    have ih := ih hsome hsorted
    cases xs with
    | nil => exact ⟨fun _ => List.pairwise_singleton _ _, fun _ => rfl⟩
    | cons b xs =>
      have hb : b.start < b.stop := hsome b List.mem_cons_self
      have hle : a.start ≤ b.start := hfirst b List.mem_cons_self
      rw [firstOverlap?, List.pairwise_cons]
      split
      · next hoverlap =>
        refine ⟨nofun, fun ⟨hapart, _⟩ => ?_⟩
        rcases hapart b List.mem_cons_self with h | h <;> omega
      · next hnext =>
        rw [ih]
        refine ⟨fun hrest => ⟨fun c hc => .inl ?_, hrest⟩, And.right⟩
        -- The next one starts behind this one, and all others start no earlier.
        rcases List.mem_cons.mp hc with rfl | hc
        · exact Nat.le_of_not_lt hnext
        · have hbc : b.start ≤ c.start := (List.pairwise_cons.mp hsorted).1 c hc
          omega

theorem mem_extents {column : Nat} {fields : List FieldSpec} {x : Extent}
    (h : x ∈ extents column fields) : ∃ f ∈ fields, x.start = f.offset ∧ x.stop = f.stop := by
  induction fields generalizing column with
  | nil => exact absurd h List.not_mem_nil
  | cons f fields ih =>
    rcases List.mem_cons.mp h with rfl | h
    · exact ⟨f, List.mem_cons_self, rfl, rfl⟩
    · obtain ⟨g, hg, heq⟩ := ih h
      exact ⟨g, List.mem_cons_of_mem f hg, heq⟩

theorem exists_extent {fields : List FieldSpec} {f : FieldSpec} (h : f ∈ fields) (column : Nat) :
    ∃ x ∈ extents column fields, x.start = f.offset ∧ x.stop = f.stop := by
  induction fields generalizing column with
  | nil => exact absurd h List.not_mem_nil
  | cons g fields ih =>
    rcases List.mem_cons.mp h with rfl | h
    · exact ⟨_, List.mem_cons_self, rfl, rfl⟩
    · obtain ⟨x, hx, heq⟩ := ih h (column + 1)
      exact ⟨x, List.mem_cons_of_mem _ hx, heq⟩

/-- The numbers of extents do not matter to where they lie. -/
theorem pairwise_extents {fields : List FieldSpec} (hsome : ∀ f ∈ fields, 0 < f.length)
    (column : Nat) :
    (extents column fields).Pairwise Extent.Apart ↔ fields.Pairwise FieldSpec.Apart := by
  induction fields generalizing column with
  | nil => exact ⟨fun _ => .nil, fun _ => .nil⟩
  | cons f fields ih =>
    obtain ⟨hf, hsome⟩ := List.forall_mem_cons.mp hsome
    rw [extents, List.pairwise_cons, List.pairwise_cons, ih hsome]
    refine and_congr_left fun _ => ⟨fun h g hg => ?_, fun h x hx => ?_⟩
    · obtain ⟨x, hx, hstart, hstop⟩ := exists_extent hg (column + 1)
      have hapart := h x hx
      rw [Extent.Apart, hstart, hstop] at hapart
      exact FieldSpec.apart_iff.mpr fun _ => hapart
    · obtain ⟨g, hg, hstart, hstop⟩ := mem_extents hx
      rw [Extent.Apart, hstart, hstop]
      exact FieldSpec.apart_iff.mp (h g hg) ⟨hf, hsome g hg⟩

theorem Extent.before_trans (a b c : Extent) (hab : a.before b = true) (hbc : b.before c = true) :
    a.before c = true := by
  simp only [before, Bool.or_eq_true, Bool.and_eq_true, decide_eq_true_eq, beq_iff_eq] at *
  omega

theorem Extent.before_total (a b : Extent) : (a.before b || b.before a) = true := by
  simp only [before, Bool.or_eq_true, Bool.and_eq_true, decide_eq_true_eq, beq_iff_eq]
  omega

theorem Extent.start_le_of_before {a b : Extent} (h : a.before b = true) : a.start ≤ b.start := by
  simp only [before, Bool.or_eq_true, Bool.and_eq_true, decide_eq_true_eq, beq_iff_eq] at h
  omega

/-- **No neighbours share a byte exactly if no two fields do**, whatever
the order in which the fields are given. -/
theorem ordered_iff {fields : List FieldSpec} (hsome : ∀ f ∈ fields, 0 < f.length) :
    firstOverlap? ((extents 1 fields).mergeSort Extent.before) = none
      ↔ fields.Pairwise FieldSpec.Apart := by
  have hperm : ((extents 1 fields).mergeSort Extent.before).Perm (extents 1 fields) :=
    List.mergeSort_perm _ _
  have hsorted : ((extents 1 fields).mergeSort Extent.before).Pairwise
      fun a b => a.start ≤ b.start :=
    (List.pairwise_mergeSort Extent.before_trans Extent.before_total _).imp
      Extent.start_le_of_before
  have hbytes : ∀ x ∈ (extents 1 fields).mergeSort Extent.before, x.start < x.stop := by
    intro x hx
    obtain ⟨f, hf, hstart, hstop⟩ := mem_extents (hperm.mem_iff.mp hx)
    have hpos := hsome f hf
    unfold FieldSpec.stop at hstop
    omega
  rw [firstOverlap?_eq_none_iff hbytes hsorted, hperm.pairwise_iff Extent.Apart.symm,
    pairwise_extents hsome]

/-! ## What is accepted -/

/-- What fields with bytes have to be like to be laid out, in records of a
length if one is given. -/
structure Fitting (fields : List FieldSpec) (stride : Option Nat) : Prop where
  some_field : fields ≠ []
  addressed : ∀ f ∈ fields, f.offset + f.length ≤ maxPlace
  within : ∀ n ∈ stride, ∀ f ∈ fields, f.offset + f.length ≤ n
  apart : fields.Pairwise FieldSpec.Apart

theorem fitting_iff {fields : List FieldSpec} {stride : Option Nat} :
    Fitting fields stride ↔ fields ≠ [] ∧ (∀ f ∈ fields, f.offset + f.length ≤ maxPlace) ∧
      (∀ n ∈ stride, ∀ f ∈ fields, f.offset + f.length ≤ n) ∧ fields.Pairwise FieldSpec.Apart :=
  ⟨fun ⟨h, h₁, h₂, h₃⟩ => ⟨h, h₁, h₂, h₃⟩, fun ⟨h, h₁, h₂, h₃⟩ => ⟨h, h₁, h₂, h₃⟩⟩

instance (fields : List FieldSpec) (stride : Option Nat) : Decidable (Fitting fields stride) :=
  decidable_of_iff' _ fitting_iff

/-- The layout that such fields have: the fields as they are given, in
records of the given length, or as long as the fields reach. -/
structure LaidOut (fields : List FieldSpec) (stride : Option Nat) (layout : Layout) : Prop where
  fields_eq : layout.fields = fields
  given : ∀ n ∈ stride, layout.stride = n
  needed : stride = none →
    (∃ f ∈ fields, f.offset + f.length = layout.stride) ∧
      ∀ f ∈ fields, f.offset + f.length ≤ layout.stride

/-- What is checked is that the fields fit. -/
theorem made_iff {fields : List FieldSpec} (hsome : ∀ f ∈ fields, 0 < f.length)
    {stride : Option Nat} {layout : Layout} :
    Made fields stride layout ↔
      Fitting fields stride ∧ layout = ⟨fields, stride.getD (reach fields)⟩ := by
  constructor
  · rintro ⟨hfield, hplaces, -, hroom, hordered, rfl⟩
    refine ⟨⟨hfield, hplaces, fun n hn f hf => ?_, (ordered_iff hsome).mp hordered⟩, rfl⟩
    rw [Option.mem_def.mp hn] at hroom
    exact Nat.le_trans (stop_le_reach hf) hroom
  · rintro ⟨⟨hfield, hplaces, hwithin, hapart⟩, rfl⟩
    have hroom : reach fields ≤ stride.getD (reach fields) := by
      cases stride with
      | none => exact Nat.le_refl _
      | some n => exact (reach_le_iff hfield).mpr (hwithin n rfl)
    obtain ⟨f, hf, heq⟩ := exists_stop_eq_reach hfield
    have hpos : 0 < f.offset + f.length := Nat.add_pos_right _ (hsome f hf)
    exact ⟨hfield, hplaces, Nat.lt_of_lt_of_le (heq ▸ hpos) hroom, hroom,
      (ordered_iff hsome).mpr hapart, rfl⟩

/-- **Fields become a layout exactly when they fit**: there is one, none
ends beyond what can be addressed or beyond the record, and no two of them
have a byte in common. The layout has them as they are given. -/
theorem ofFields_accepts_iff {fields : List FieldSpec} (hsome : ∀ f ∈ fields, 0 < f.length)
    (stride : Option Nat) :
    ((∃ layout, ofFields fields stride = .ok layout) ↔ Fitting fields stride) ∧
      ∀ layout, ofFields fields stride = .ok layout → LaidOut fields stride layout := by
  refine ⟨⟨fun ⟨layout, h⟩ => ?_, fun h => ?_⟩, fun layout h => ?_⟩
  · exact ((made_iff hsome).mp (ofFields_eq_ok_iff.mp h)).1
  · exact ⟨_, ofFields_eq_ok_iff.mpr ((made_iff hsome).mpr ⟨h, rfl⟩)⟩
  · obtain ⟨hfit, rfl⟩ := (made_iff hsome).mp (ofFields_eq_ok_iff.mp h)
    refine ⟨rfl, fun n hn => by rw [Option.mem_def.mp hn]; rfl, fun hnone => ?_⟩
    subst hnone
    exact ⟨exists_stop_eq_reach hfit.some_field, fun f hf => stop_le_reach hf⟩

/-- Fields that are given out of order and touch, and fields one of which
lies within another that is not its neighbour in the list. -/
theorem ofFields_accepts_touching :
    (∀ f ∈ ([⟨.integer, 3, 4, none⟩, ⟨.char, 7, 1, none⟩, ⟨.varchar, 0, 3, some []⟩] :
        List FieldSpec), 0 < f.length) ∧
      (∃ layout, ofFields [⟨.integer, 3, 4, none⟩, ⟨.char, 7, 1, none⟩, ⟨.varchar, 0, 3, some []⟩]
        (some 9) = .ok layout) ∧
      ¬ ∃ layout, ofFields [⟨.char, 0, 9, none⟩, ⟨.char, 9, 1, none⟩, ⟨.integer, 2, 4, none⟩] none
        = .ok layout :=
  ⟨by decide,
    (ofFields_accepts_iff (by decide) (some 9)).1.mpr (by decide +kernel),
    fun h => absurd ((ofFields_accepts_iff (by decide) none).1.mp h) (by decide +kernel)⟩

end Layout
end Intake
