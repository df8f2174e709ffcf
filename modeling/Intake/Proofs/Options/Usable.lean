import Intake.Csv
import Intake.Options.Draft
import Intake.Proofs.Layout.Fitting
import Intake.Record.Delimited
/-!
# Dialects and layouts that are accepted

Options are checked before a reader is made from them, and what the
check leaves is stated here once, in the form in which it is used: no
byte of a dialect can be taken for another one that matters. The
delimiter has no line end, quote or escape in it, and neither quote nor
escape is a line end (`Dialect.Usable`, `Dialect.usable_of_check`).
Options that are made from pairs have been checked (`Options.check_ofPairs`).
Of a layout that is accepted it matters that its records have bytes
(`Layout.Accepted.stride_pos`).
-/

namespace Intake

/-- What makes the bytes of a dialect tell apart. -/
structure Dialect.Usable (d : Dialect) : Prop where
  some_delimiter : d.delimiter ≠ []
  delimiter_end : ∀ b ∈ d.delimiter, b ≠ Csv.lineFeed ∧ b ≠ Csv.carriageReturn
  delimiter_quote : ∀ b ∈ d.delimiter, some b ≠ d.quote
  delimiter_escape : ∀ b ∈ d.delimiter, some b ≠ d.escape
  quote_end : ∀ b, some b = d.quote → b ≠ Csv.lineFeed ∧ b ≠ Csv.carriageReturn
  escape_end : ∀ b, some b = d.escape → b ≠ Csv.lineFeed ∧ b ≠ Csv.carriageReturn

namespace Dialect

theorem isLineEnd_eq_false {b : UInt8} (h : isLineEnd b = false) :
    b ≠ Csv.lineFeed ∧ b ≠ Csv.carriageReturn := by
  simp only [isLineEnd, Bool.or_eq_false_iff, beq_eq_false_iff_ne] at h
  exact ⟨h.2, h.1⟩

theorem checkByte_ok {delimiter : Bytes} {title : String} {x : Option UInt8}
    (h : checkByte delimiter title x = .ok ()) {b : UInt8} (hb : some b = x) :
    b ∉ delimiter ∧ b ≠ Csv.lineFeed ∧ b ≠ Csv.carriageReturn := by
  subst hb
  simp only [checkByte] at h
  split at h
  · cases h
  · next hin =>
    split at h
    · cases h
    · next hend => exact ⟨by simpa using hin, isLineEnd_eq_false (by simpa using hend)⟩

/-- What the check of a dialect leaves. -/
structure Checked (d : Dialect) : Prop where
  some_delimiter : d.delimiter ≠ []
  delimiter_end : ∀ b ∈ d.delimiter, isLineEnd b = false
  delimiter_reserved : ∀ b ∈ d.delimiter, isReserved b = false
  marker_end : ∀ b ∈ d.nullMarker, isLineEnd b = false
  marker_apart : Bytes.occursIn d.delimiter d.nullMarker = false
  quote : checkByte d.delimiter "QUOTE" d.quote = .ok ()
  escape : checkByte d.delimiter "ESCAPE" d.escape = .ok ()

theorem checked_of_check {d : Dialect} (h : d.check = .ok ()) : d.Checked := by
  unfold check at h
  split at h
  · cases h
  next hsome =>
  split at h
  · cases h
  next hends =>
  split at h
  · cases h
  next hreserved =>
  split at h
  · cases h
  next hmarker =>
  split at h
  · cases h
  next hoverlap =>
  split at h
  · cases h
  next hquote =>
  simp only [Bool.or_eq_true, List.isEmpty_iff, decide_eq_true_eq, not_or] at hsome
  simp only [Bool.or_eq_true, not_or, Bool.not_eq_true] at hoverlap
  exact
    { some_delimiter := hsome.1
      delimiter_end := by simpa using hends
      delimiter_reserved := by simpa using hreserved
      marker_end := by simpa using hmarker
      marker_apart := hoverlap.1
      quote := hquote
      escape := h }

/-- A dialect that is accepted is usable. -/
theorem usable_of_check {d : Dialect} (h : d.check = .ok ()) : d.Usable := by
  have hchecked := checked_of_check h
  exact
    { some_delimiter := hchecked.some_delimiter
      delimiter_end := fun b hb => isLineEnd_eq_false (hchecked.delimiter_end b hb)
      delimiter_quote := fun b hb hq => (checkByte_ok hchecked.quote hq).1 hb
      delimiter_escape := fun b hb he => (checkByte_ok hchecked.escape he).1 hb
      quote_end := fun b hq => (checkByte_ok hchecked.quote hq).2
      escape_end := fun b he => (checkByte_ok hchecked.escape he).2 }

/-- The escape within quotes is another byte than the quote. -/
theorem ne_quote_of_quotedEscape {d : Dialect} {b : UInt8} (h : some b = d.quotedEscape) :
    some b ≠ d.quote := by
  intro hq
  simp only [quotedEscape, ← hq] at h
  split at h
  · next q e heq he =>
    cases heq
    split at h
    · cases h
    · next hne => exact hne (Option.some.inj h)
  · cases h

theorem escape_of_plainEscape {d : Dialect} {b : UInt8} (h : some b = d.plainEscape) :
    some b = d.escape := by
  unfold plainEscape at h
  split at h
  · exact h
  · cases h

/-- An escape outside quotes is known only where there are no quotes. -/
theorem plainEscape_eq_none {d : Dialect} {q : UInt8} (h : d.quote = some q) :
    d.plainEscape = none := by
  simp [plainEscape, h]

/-! ## Where the scan goes -/

section Scan

variable {d : Dialect}

theorem next_outside {b : UInt8} (hend : b ≠ Csv.lineFeed) (hquote : some b ≠ d.quote)
    (hescape : some b ≠ d.plainEscape) : Region.next d .outside b = some .outside := by
  simp [Region.next, hend, hquote, hescape]

theorem next_quoted {b : UInt8} (hquote : some b ≠ d.quote) (hescape : some b ≠ d.quotedEscape) :
    Region.next d .quoted b = some .quoted := by
  simp [Region.next, hquote, hescape]

theorem next_opening (hd : d.Usable) {b : UInt8} (hquote : some b = d.quote) :
    Region.next d .outside b = some .quoted := by
  simp only [Region.next]
  rw [if_neg (hd.quote_end b hquote).1, if_pos hquote]

theorem next_closing {b : UInt8} (hquote : some b = d.quote) :
    Region.next d .quoted b = some .outside := by
  simp only [Region.next]
  rw [if_neg fun he => ne_quote_of_quotedEscape he hquote, if_pos hquote]

theorem next_quotedEscape {b : UInt8} (hescape : some b = d.quotedEscape) :
    Region.next d .quoted b = some .quotedEscape := by
  simp only [Region.next]
  rw [if_pos hescape]

theorem next_escaped {b : UInt8} (hend : b ≠ Csv.lineFeed) (hquote : some b ≠ d.quote)
    (hescape : some b = d.plainEscape) : Region.next d .outside b = some .escaped := by
  simp only [Region.next]
  rw [if_neg hend, if_neg hquote, if_pos hescape]

/-- After an escape any byte is passed over. -/
theorem next_behind_quotedEscape (b : UInt8) : Region.next d .quotedEscape b = some .quoted := rfl

theorem next_behind_escaped (b : UInt8) : Region.next d .escaped b = some .outside := rfl

/-- No byte of the delimiter matters to the scan. -/
theorem next_delimiter (hd : d.Usable) {b : UInt8} (hb : b ∈ d.delimiter) :
    Region.next d .outside b = some .outside :=
  next_outside (hd.delimiter_end b hb).1 (hd.delimiter_quote b hb)
    fun he => hd.delimiter_escape b hb (escape_of_plainEscape he)

/-- Outside quotes a carriage return is a byte like others for the scan. -/
theorem next_return (hd : d.Usable) : Region.next d .outside Csv.carriageReturn = some .outside :=
  next_outside (by decide) (fun hq => (hd.quote_end _ hq).2 rfl)
    fun he => (hd.escape_end _ (escape_of_plainEscape he)).2 rfl

end Scan

end Dialect

/-! ## Options that pairs give -/

section Pairs

variable {d : Draft} {dialect : Dialect} {o : Options}

/-- A dialect that a draft gives has passed the check, and can be without
a quote only where the format is so by itself. -/
theorem Draft.dialect_ok {base : Dialect} {quotable : Bool}
    (h : d.dialect base quotable = .ok dialect) :
    dialect.check = .ok () ∧ (base.quote.isSome = true → dialect.quote.isSome = true) := by
  unfold Draft.dialect at h
  split at h
  · cases h
  split at h
  · cases h
  next quote _ =>
  split at h
  · cases h
  next escape _ =>
  dsimp only at h
  generalize hmade : Dialect.mk .. = made at h
  cases hcheck : made.check with
  | error e =>
    rw [hcheck] at h
    cases h
  | ok _ =>
    rw [hcheck] at h
    cases h
    refine ⟨hcheck, fun hbase => ?_⟩
    rw [← hmade]
    cases quote with
    | none => exact hbase
    | some q => rfl

/-- The dialect of formats that do not use it is that of CSV. -/
theorem Draft.dialectFor_ok {format : InputFormat} (h : d.dialectFor format = .ok dialect) :
    dialect.check = .ok () ∧ (format = .csv → dialect.quote.isSome = true) := by
  cases format with
  | csv => exact (dialect_ok h).imp_right fun hquote _ => hquote rfl
  | text => exact ⟨(dialect_ok h).1, nofun⟩
  | _ =>
    simp only [dialectFor] at h
    split at h
    · cases h
    · cases h
      exact ⟨rfl, nofun⟩

/-- **Options made from pairs have been checked**, and there is a quote in
all that are of CSV. -/
theorem Options.check_ofPairs {pairs : List (String × String)} (h : Options.ofPairs pairs = .ok o) :
    o.dialect.check = .ok () ∧ (o.format = .csv → o.dialect.quote.isSome = true) := by
  unfold Options.ofPairs at h
  split at h
  · cases h
  next d _ =>
  unfold Draft.finish at h
  dsimp only at h
  split at h
  · cases h
  next dialect hdialect =>
  split at h
  · cases h
  split at h
  · cases h
  cases h
  exact Draft.dialectFor_ok hdialect

end Pairs

/-! ## Layouts that are accepted -/

/-- A layout that has passed the check. -/
def Layout.Accepted (layout : Layout) : Prop :=
  ∃ fields stride, Layout.ofFields fields stride = .ok layout

/-- Its records have bytes. -/
theorem Layout.Accepted.stride_pos {layout : Layout} (h : layout.Accepted) :
    0 < layout.stride := by
  obtain ⟨fields, stride, hmade⟩ := h
  exact (ofFields_eq_ok_iff.mp hmade).stride_pos

/-- The layout of options made from pairs has passed it. -/
theorem Options.layout_ofPairs {pairs : List (String × String)} {o : Options}
    (h : Options.ofPairs pairs = .ok o) {layout : Layout} (hlayout : o.layout = some layout) :
    layout.Accepted := by
  unfold Options.ofPairs at h
  split at h
  · cases h
  next d _ =>
  unfold Draft.finish at h
  dsimp only at h
  split at h
  · cases h
  split at h
  · cases h
  next made hmade =>
  split at h
  · cases h
  cases h
  obtain rfl : made = some layout := hlayout
  unfold Draft.layoutFor at hmade
  split at hmade
  · unfold Layout.ofNotation at hmade
    split at hmade
    · cases hmade
    next fields _ =>
    cases hfields : Layout.ofFields fields d.stride with
    | error e =>
      rw [hfields] at hmade
      cases hmade
    | ok accepted =>
      rw [hfields] at hmade
      cases hmade
      exact ⟨fields, d.stride, hfields⟩
  · split at hmade
    · cases hmade
    · cases hmade

end Intake
