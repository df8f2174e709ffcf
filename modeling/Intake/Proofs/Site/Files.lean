import Intake.Proofs.Site.Frame
import Intake.Site.BadFile
/-!
# Sites that agree on some files

Two sites may differ in much and still be the same to whoever looks at
some files only. `Directory.Agrees` says so of two directories: the same
folders, and under some names the same bytes. It serves in two ways, for
a directory before and after a step that leaves these files alone, and
for the directories of two runs that take the same step.

A file of rejected records does both. It writes to one name, wherever
that leads, and so leaves the others alone (`BadFile.Elsewhere.append`);
and what it does, if it does not fail, is the same in directories that
agree (`BadFile.append_alike`). A failure need not be the same: opening a
file through one that is no folder fails otherwise than through nothing.
-/

namespace Intake
namespace Directory

/-- Two directories with the same folders and, under some names, the same
bytes. -/
structure Agrees (names : String → Prop) (d d' : Directory) : Prop extends Alongside d d' where
  bytes : ∀ name, names name → d'.bytesAt name = d.bytesAt name

variable {names : String → Prop} {d d' d'' : Directory}

theorem Agrees.refl (names : String → Prop) (d : Directory) : Agrees names d d :=
  ⟨.refl d, fun _ _ => rfl⟩

theorem Agrees.symm (h : Agrees names d d') : Agrees names d' d :=
  ⟨h.toAlongside.symm, fun name hname => (h.bytes name hname).symm⟩

theorem Agrees.trans (h : Agrees names d d') (h' : Agrees names d' d'') : Agrees names d d'' :=
  ⟨h.toAlongside.trans h'.toAlongside,
    fun name hname => (h'.bytes name hname).trans (h.bytes name hname)⟩

/-- Adding to another file. -/
theorem agrees_append {other : String} (hother : ¬ names other) (d : Directory) (bs : Bytes) :
    d.Agrees names (d.append other bs) := by
  refine ⟨d.alongside_change _ _, fun name hname => ?_⟩
  rw [bytesAt_append, if_neg]
  rintro rfl
  exact hother hname

/-- Adding the same to the same file of both, whichever it is. -/
theorem Agrees.append (h : d.Agrees names d') (other : String) (bs : Bytes) :
    (d.append other bs).Agrees names (d'.append other bs) := by
  refine ⟨((d.alongside_change _ _).symm.trans h.toAlongside).trans (d'.alongside_change _ _),
    fun name hname => ?_⟩
  rw [bytesAt_append, bytesAt_append]
  split
  · next heq => rw [← heq, h.bytes name hname]
  · exact h.bytes name hname

/-- Opening a file changes no bytes. -/
theorem agrees_openToAppend (names : String → Prop) (d : Directory) (path : String) :
    d.Agrees names (d.openToAppend path).2 :=
  ⟨(d.openToAppend_spares path).1, fun name _ => (d.openToAppend_spares path).2 name⟩

/-- What can be opened in one of them can be opened in the other. -/
theorem Agrees.openToAppend (h : d.Agrees names d') {path opened : String} {d₁ : Directory}
    (hopen : d.openToAppend path = (.ok opened, d₁)) :
    ∃ d₁', d'.openToAppend path = (.ok opened, d₁') ∧ d₁.Agrees names d₁' := by
  have hopen' : (d'.openToAppend path).1 = .ok opened := h.openToAppend_ok (by rw [hopen])
  have hfirst := d.agrees_openToAppend names path
  have hsecond := d'.agrees_openToAppend names path
  rw [hopen] at hfirst
  exact ⟨_, Prod.ext hopen' rfl, (hfirst.symm.trans h).trans hsecond⟩

end Directory

/-! ## Files of rejected records -/

namespace BadFile

open Directory

variable {names : String → Prop} {b b' : BadFile} {d d' : Directory}

/-- What waits is written to both. -/
theorem flush_alike (b : BadFile) (h : d.Agrees names d') :
    ∃ b₁ d₁ d₁', b.flush d = (b₁, d₁) ∧ b.flush d' = (b₁, d₁') ∧ d₁.Agrees names d₁' := by
  unfold flush
  split
  · exact ⟨_, _, _, rfl, rfl, h⟩
  · exact ⟨_, _, _, rfl, rfl, h.append _ _⟩

theorem write_alike (b : BadFile) (h : d.Agrees names d') (opened : String) (bs : Bytes) :
    ∃ b₁ d₁ d₁', b.write opened bs d = (b₁, d₁) ∧ b.write opened bs d' = (b₁, d₁') ∧
      d₁.Agrees names d₁' := by
  obtain ⟨b₁, d₁, d₁', hroom, hroom', h₁⟩ : ∃ b₁ d₁ d₁',
      (if capacity < b.waiting.length + bs.length then b.flush d else (b, d)) = (b₁, d₁) ∧
      (if capacity < b.waiting.length + bs.length then b.flush d' else (b, d')) = (b₁, d₁') ∧
      d₁.Agrees names d₁' := by
    by_cases hfull : capacity < b.waiting.length + bs.length
    · rw [if_pos hfull, if_pos hfull]
      exact b.flush_alike h
    · rw [if_neg hfull, if_neg hfull]
      exact ⟨b, d, d', rfl, rfl, h⟩
  unfold write
  rw [hroom, hroom']
  dsimp only
  split
  · exact ⟨_, _, _, rfl, rfl, h₁.append _ _⟩
  · exact ⟨_, _, _, rfl, rfl, h₁⟩

/-- **A record that is added is added in the same way in directories that
agree.** -/
theorem append_alike {record : Bytes} {d₁ : Directory} (h : d.Agrees names d')
    (happend : b.append record d = (.ok (), b', d₁)) :
    ∃ d₁', b.append record d' = (.ok (), b', d₁') ∧ d₁.Agrees names d₁' := by
  unfold append at happend ⊢
  rcases hpath : b.path with _ | path
  · rw [hpath] at happend
    cases happend
    exact ⟨d', rfl, h⟩
  · rw [hpath] at happend
    dsimp only at happend ⊢
    rcases hopened : b.opened with _ | opened
    · rw [hopened] at happend
      rcases hopen : d.openToAppend path with ⟨e | opened, d₂⟩
      · rw [hopen] at happend
        cases happend
      · obtain ⟨d₂', hopen', h₂⟩ := h.openToAppend hopen
        obtain ⟨b₃, d₃, d₃', hwrite, hwrite', h₃⟩ :=
          write_alike { b with opened := some opened } h₂ opened record
        rw [hopen] at happend
        rw [hopen']
        dsimp only at happend ⊢
        rw [← hpath, hwrite] at happend
        rw [← hpath, hwrite']
        cases happend
        exact ⟨d₃', rfl, h₃⟩
    · obtain ⟨b₃, d₃, d₃', hwrite, hwrite', h₃⟩ := b.write_alike h opened record
      rw [hopened] at happend
      dsimp only at happend ⊢
      rw [hwrite] at happend
      rw [hwrite']
      cases happend
      exact ⟨d₃', rfl, h₃⟩

/-- A file of rejected records that leads to none of some names. -/
structure Elsewhere (names : String → Prop) (d : Directory) (b : BadFile) : Prop where
  opened : ∀ name, b.opened = some name → ¬ names name
  path : ∀ path name, b.path = some path → (d.openToAppend path).1 = .ok name → ¬ names name

theorem Elsewhere.flush (h : b.Elsewhere names d) (d' : Directory) :
    ∃ b₁ d₁, b.flush d' = (b₁, d₁) ∧ b₁.Elsewhere names d ∧ d'.Agrees names d₁ := by
  unfold BadFile.flush
  split
  · exact ⟨_, _, rfl, h, .refl names d'⟩
  · next name hopened =>
    exact ⟨_, _, rfl, ⟨h.opened, h.path⟩, agrees_append (h.opened name hopened) d' _⟩

theorem Elsewhere.write (h : b.Elsewhere names d) {opened : String} (hopened : ¬ names opened)
    (bs : Bytes) (d' : Directory) :
    ∃ b₁ d₁, b.write opened bs d' = (b₁, d₁) ∧ b₁.Elsewhere names d ∧ d'.Agrees names d₁ := by
  obtain ⟨b₁, d₁, hroom, h₁, hd₁⟩ : ∃ b₁ d₁,
      (if capacity < b.waiting.length + bs.length then b.flush d' else (b, d')) = (b₁, d₁) ∧
      b₁.Elsewhere names d ∧ d'.Agrees names d₁ := by
    split
    · exact h.flush d'
    · exact ⟨b, d', rfl, h, .refl names d'⟩
  unfold BadFile.write
  rw [hroom]
  dsimp only
  split
  · exact ⟨_, _, rfl, h₁, hd₁.trans (agrees_append hopened d₁ bs)⟩
  · exact ⟨_, _, rfl, ⟨h₁.opened, h₁.path⟩, hd₁⟩

/-- **Adding a record leaves the files of those names alone**, also where
it fails. -/
theorem Elsewhere.append (h : b.Elsewhere names d) (hd : d.Alongside d') (record : Bytes) :
    ∃ outcome b₁ d₁, b.append record d' = (outcome, b₁, d₁) ∧ b₁.Elsewhere names d ∧
      d'.Agrees names d₁ := by
  unfold BadFile.append
  cases hpath : b.path with
  | none => exact ⟨_, _, _, rfl, h, .refl names d'⟩
  | some path =>
    dsimp only
    cases hopened : b.opened with
    | some opened =>
      obtain ⟨b₁, d₁, hwrite, hb, hagrees⟩ := h.write (h.opened opened hopened) record d'
      dsimp only
      rw [hwrite]
      exact ⟨_, _, _, rfl, ⟨hb.opened, hb.path⟩, hagrees⟩
    | none =>
      have hagrees := d'.agrees_openToAppend names path
      dsimp only
      rcases hopen : d'.openToAppend path with ⟨e | opened, d₁⟩
      · rw [hopen] at hagrees
        exact ⟨_, _, _, rfl, h, hagrees⟩
      · rw [hopen] at hagrees
        have hother : ¬ names opened :=
          h.path path opened hpath (hd.symm.openToAppend_ok (congrArg Prod.fst hopen))
        have hb : ({ b with opened := some opened } : BadFile).Elsewhere names d :=
          ⟨fun name hname => Option.some.inj hname ▸ hother, h.path⟩
        obtain ⟨b₂, d₂, hwrite, hb₂, hagrees'⟩ := hb.write hother record d₁
        dsimp only
        rw [← hpath, hwrite]
        exact ⟨_, _, _, rfl, ⟨hb₂.opened, hb₂.path⟩, hagrees.trans hagrees'⟩

end BadFile

/-! ## Sites -/

namespace Site

/-- Two sites with the same request to stop, if any, whose directories
agree. -/
structure Agrees (names : String → Prop) (s s' : Site) : Prop where
  directory : s.directory.Agrees names s'.directory
  token : s'.token = s.token

variable {names : String → Prop} {s s' s'' : Site}

theorem Agrees.refl (names : String → Prop) (s : Site) : Agrees names s s := ⟨.refl _ _, rfl⟩

theorem Agrees.symm (h : Agrees names s s') : Agrees names s' s :=
  ⟨h.directory.symm, h.token.symm⟩

theorem Agrees.trans (h : Agrees names s s') (h' : Agrees names s' s'') : Agrees names s s'' :=
  ⟨h.directory.trans h'.directory, h'.token.trans h.token⟩

theorem Agrees.alongside (h : Agrees names s s') : s.Alongside s' :=
  ⟨h.directory.toAlongside, h.token⟩

/-- Two sites that agree after a step on one of them. -/
theorem Agrees.left (h : Agrees names s s') (h' : Agrees names s s'') : Agrees names s'' s' :=
  h'.symm.trans h

end Site

namespace Observer

/-- An observer that leaves the files of some names alone, wherever it is
asked to do something beside a site. -/
def Keeps (names : String → Prop) (s : Site) (o : Observer) : Prop :=
  ∀ e s', s.Alongside s' → s'.Agrees names (o e s')

/-- Leaving each of some files alone is leaving all of them alone. -/
theorem keeps_of_spares {names : String → Prop} {s : Site} {o : Observer}
    (hsome : ∃ name, names name) (h : ∀ name, names name → o.Spares name s) :
    o.Keeps names s := by
  intro e s' hs
  obtain ⟨name, hname⟩ := hsome
  have hspares := h name hname e s' hs
  exact ⟨⟨hspares.directory, fun other hother => (h other hother e s' hs).bytes⟩, hspares.token⟩

end Observer
end Intake
