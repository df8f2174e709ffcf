import Intake.Site.Observer
/-!
# What a step leaves alone

Most of what a run does to its site has nothing to do with the file that
it keeps rejected records in. `Site.Spares` says so of one step: the
folders, the token and the bytes of that file are as before. It is
enough to know this to know that the file is still found under its name
(`Directory.Alongside.openToAppend_ok`), because where a name leads does
not depend on any file but the one it names.

The observers there are spare every file but the one that they write to
themselves (`Observer.spares_file`).
-/

namespace Intake
namespace Directory

/-! ## Bytes of a file -/

/-- The bytes under a name, none where there is no file. -/
def bytesAt (d : Directory) (name : String) : Bytes := (d.contents? name).getD []

theorem assemble_cons (bs : Bytes) (pieces : List Bytes) :
    assemble (bs :: pieces) = assemble pieces ++ bs := by
  simp [assemble]

theorem hasFile_iff (d : Directory) (name : String) :
    d.hasFile name = (d.files.lookup name).isSome := by
  unfold hasFile
  induction d.files with
  | nil => rfl
  | cons file files ih =>
    obtain ⟨key, pieces⟩ := file
    rw [List.any_cons, ih, List.lookup_cons]
    by_cases hkey : key = name
    · simp [hkey]
    · have hne : (name == key) = false := beq_eq_false_iff_ne.mpr (Ne.symm hkey)
      simp [hkey, hne]

/-- The pieces of files, those of one name changed. -/
theorem lookup_map (files : List (String × List Bytes)) (name other : String)
    (f : List Bytes → List Bytes) :
    (files.map fun file => if file.1 == name then (name, f file.2) else file).lookup other
      = if other = name then (files.lookup name).map f else files.lookup other := by
  induction files with
  | nil => simp
  | cons file files ih =>
    obtain ⟨key, pieces⟩ := file
    simp only [beq_iff_eq] at ih ⊢
    rw [List.map_cons]
    by_cases hkey : key = name
    · subst hkey
      by_cases hother : other = key
      · simp [hother]
      · have hne : (other == key) = false := beq_eq_false_iff_ne.mpr hother
        simp [List.lookup_cons, hne, ih, hother]
    · have hname : (name == key) = false := beq_eq_false_iff_ne.mpr (Ne.symm hkey)
      by_cases hother : other = key
      · subst hother
        simp [hkey]
      · have hne : (other == key) = false := beq_eq_false_iff_ne.mpr hother
        simp [List.lookup_cons, hkey, hname, hne, ih]

/-- A change of a file is one of that file only. -/
theorem lookup_change (d : Directory) (name other : String) (f : List Bytes → List Bytes) :
    (d.change name f).files.lookup other
      = if other = name then some (f ((d.files.lookup name).getD []))
        else d.files.lookup other := by
  unfold change
  split
  · next hfile =>
    rw [hasFile_iff] at hfile
    obtain ⟨pieces, hpieces⟩ := Option.isSome_iff_exists.mp hfile
    rw [lookup_map, hpieces]
    rfl
  · next hfile =>
    rw [hasFile_iff, Bool.not_eq_true, Option.isSome_eq_false_iff, Option.isNone_iff_eq_none]
      at hfile
    dsimp only
    rw [hfile, List.lookup_append]
    by_cases hname : other = name
    · subst hname
      simp [hfile]
    · have hne : (other == name) = false := beq_eq_false_iff_ne.mpr hname
      simp [hname, List.lookup_cons, hne]

/-- Adding bytes to a file adds them to that file only. -/
theorem bytesAt_append (d : Directory) (name other : String) (bs : Bytes) :
    (d.append name bs).bytesAt other
      = if other = name then d.bytesAt name ++ bs else d.bytesAt other := by
  unfold bytesAt contents? append
  rw [lookup_change]
  split
  · cases d.files.lookup name with
    | none => simp [assemble]
    | some pieces => simp [assemble_cons]
  · rfl

/-- A file that is changed is there, and the others still are. -/
theorem hasFile_change {d : Directory} {name other : String}
    (h : other = name ∨ d.hasFile other = true) (f : List Bytes → List Bytes) :
    (d.change name f).hasFile other = true := by
  rw [hasFile_iff, lookup_change]
  split
  · rfl
  · next hne => exact hasFile_iff d other ▸ h.resolve_left hne

/-! ## Where a name leads -/

/-- Two directories with the same folders. -/
structure Alongside (d d' : Directory) : Prop where
  root : d'.root = d.root
  folders : d'.folders = d.folders

section Alongside

variable {d d' : Directory}

theorem Alongside.refl (d : Directory) : Alongside d d := ⟨rfl, rfl⟩

theorem Alongside.symm (h : Alongside d d') : Alongside d' d := ⟨h.root.symm, h.folders.symm⟩

theorem Alongside.trans {d'' : Directory} (h : Alongside d d') (h' : Alongside d' d'') :
    Alongside d d'' :=
  ⟨h'.root.trans h.root, h'.folders.trans h.folders⟩

/-- A change of a file is none of the folders. -/
theorem alongside_change (d : Directory) (name : String) (f : List Bytes → List Bytes) :
    Alongside d (d.change name f) := by
  unfold change
  split <;> exact ⟨rfl, rfl⟩

theorem Alongside.home_eq (h : Alongside d d') : d'.home = d.home := by
  unfold home
  rw [h.root]

theorem Alongside.nameOf_eq (h : Alongside d d') (place : List String) :
    d'.nameOf place = d.nameOf place := by
  unfold nameOf
  rw [h.home_eq]

theorem Alongside.isFolder_eq (h : Alongside d d') (place : List String) :
    d'.isFolder place = d.isFolder place := by
  unfold isFolder
  rw [h.home_eq, h.folders, h.nameOf_eq]

/-- Files decide only about names that lead nowhere. -/
theorem Alongside.follow_eq (h : Alongside d d') {here ps : List String} {place : List String}
    {last : String} {slash : Bool} (hway : d.follow here ps = .into place last slash) :
    d'.follow here ps = .into place last slash := by
  induction ps generalizing here with
  | nil => cases hway
  | cons part rest ih =>
    simp only [follow, h.isFolder_eq] at hway ⊢
    split at hway
    · next hpart => rw [if_pos hpart]; exact ih hway
    next hpart =>
    rw [if_neg hpart]
    split at hway
    · next hrest => rw [if_pos hrest]; exact hway
    next hrest =>
    rw [if_neg hrest]
    split at hway
    · cases hway
    next hlong =>
    rw [if_neg hlong]
    split at hway
    · next hfolder => rw [if_pos hfolder]; exact ih hway
    · split at hway <;> cases hway

theorem Alongside.way_eq (h : Alongside d d') {path : String} {place : List String}
    {last : String} {slash : Bool} (hway : d.way path = .into place last slash) :
    d'.way path = .into place last slash := by
  unfold way at hway ⊢
  have hstart : d'.start path = d.start path := by
    unfold start
    rw [h.home_eq]
  split at hway
  · cases hway
  next hnul =>
  rw [if_neg hnul]
  split at hway
  · cases hway
  next hempty =>
  rw [if_neg hempty]
  split at hway
  · cases hway
  next hlong =>
  rw [if_neg hlong, hstart]
  exact h.follow_eq hway

/-- Opening a file to add to it, where the last part of its name is to be
looked up. -/
theorem openToAppend_into {path last : String} {place : List String}
    (hway : d.way path = .into place last false) :
    d.openToAppend path
      = if maxPart < last.utf8ByteSize then (.error .nameTooLong, d)
        else if d.isFolder place then (.error .isDirectory, d)
        else (.ok (d.nameOf place),
          if d.hasFile (d.nameOf place) then d else d.put (d.nameOf place) []) := by
  unfold openToAppend find
  rw [hway]
  by_cases hlong : maxPart < last.utf8ByteSize
  · simp [hlong]
  · by_cases hfolder : d.isFolder place
    · simp [hlong, hfolder]
    · by_cases hfile : d.hasFile (d.nameOf place) <;> simp [hlong, hfolder, hfile]

/-- What it comes to, and what that takes. -/
theorem openToAppend_cases (d : Directory) (path : String) :
    (∃ e, d.openToAppend path = (.error e, d)) ∨
      ∃ place last, d.way path = .into place last false ∧ ¬ maxPart < last.utf8ByteSize ∧
        d.isFolder place = false ∧
        d.openToAppend path = (.ok (d.nameOf place),
          if d.hasFile (d.nameOf place) then d else d.put (d.nameOf place) []) := by
  cases hway : d.way path with
  | folder =>
    refine .inl ⟨.isDirectory, ?_⟩
    unfold openToAppend find
    rw [hway]
  | blocked e =>
    refine .inl ⟨e, ?_⟩
    unfold openToAppend find
    rw [hway]
  | into place last slash =>
    cases slash with
    | true =>
      refine .inl ⟨.isDirectory, ?_⟩
      unfold openToAppend
      rw [hway]
    | false =>
      have hinto := openToAppend_into hway
      by_cases hlong : maxPart < last.utf8ByteSize
      · exact .inl ⟨_, hinto.trans (if_pos hlong)⟩
      · rw [if_neg hlong] at hinto
        by_cases hfolder : d.isFolder place = true
        · exact .inl ⟨_, hinto.trans (if_pos hfolder)⟩
        · rw [if_neg hfolder] at hinto
          exact .inr ⟨place, last, rfl, hlong, Bool.not_eq_true _ ▸ hfolder, hinto⟩

/-- A file is found in the same place whatever other files there are. -/
theorem Alongside.openToAppend_ok (h : Alongside d d') {path name : String}
    (hopen : (d.openToAppend path).1 = .ok name) : (d'.openToAppend path).1 = .ok name := by
  rcases d.openToAppend_cases path with ⟨e, herror⟩ | ⟨place, last, hway, hlong, hfolder, hok⟩
  · rw [herror] at hopen
    cases hopen
  · rw [hok] at hopen
    obtain rfl := Except.ok.inj hopen
    rw [openToAppend_into (h.way_eq hway), if_neg hlong, h.isFolder_eq, hfolder, h.nameOf_eq]
    rfl

/-- A file that has been opened to add to it is there. -/
theorem hasFile_openToAppend {path name : String} (hopen : (d.openToAppend path).1 = .ok name) :
    (d.openToAppend path).2.hasFile name = true := by
  rcases d.openToAppend_cases path with ⟨e, herror⟩ | ⟨place, last, -, -, -, hok⟩
  · rw [herror] at hopen
    cases hopen
  · rw [hok] at hopen ⊢
    obtain rfl := Except.ok.inj hopen
    dsimp only
    split
    · assumption
    · exact hasFile_change (.inl rfl) _

/-- It can also be read, as long as it is there. -/
theorem Alongside.openToRead_eq {path name : String} (h : (d.openToAppend path).2.Alongside d')
    (hopen : (d.openToAppend path).1 = .ok name) (hfile : d'.hasFile name = true) :
    d'.openToRead path = .ok (.ok (d'.bytesAt name)) := by
  rcases d.openToAppend_cases path with ⟨e, herror⟩ | ⟨place, last, hway, hlong, hfolder, hok⟩
  · rw [herror] at hopen
    cases hopen
  · rw [hok] at hopen
    obtain rfl := Except.ok.inj hopen
    have halong : d.Alongside d' := by
      refine .trans ?_ h
      rw [hok]
      dsimp only
      split
      · exact .refl d
      · exact alongside_change d _ _
    have hfind : d'.find path = .file (d.nameOf place) := by
      unfold find
      rw [halong.way_eq hway]
      dsimp only
      rw [if_neg hlong, halong.isFolder_eq, hfolder, halong.nameOf_eq, hfile]
      rfl
    unfold openToRead
    rw [hfind]
    rfl

/-- Opening a file changes no bytes. -/
theorem openToAppend_spares (d : Directory) (path : String) :
    Alongside d (d.openToAppend path).2 ∧
      ∀ name, (d.openToAppend path).2.bytesAt name = d.bytesAt name := by
  have hput : ∀ made, d.hasFile made = false → ∀ name,
      (d.put made []).bytesAt name = d.bytesAt name := by
    intro made hmade name
    rw [hasFile_iff, Option.isSome_eq_false_iff, Option.isNone_iff_eq_none] at hmade
    unfold bytesAt contents? put
    rw [lookup_change]
    split
    · next hname => rw [hname, hmade]; rfl
    · rfl
  rcases d.openToAppend_cases path with ⟨e, herror⟩ | ⟨place, last, -, -, -, hok⟩
  · rw [herror]
    exact ⟨.refl d, fun _ => rfl⟩
  · rw [hok]
    dsimp only
    split
    · exact ⟨.refl d, fun _ => rfl⟩
    · next hfile =>
      exact ⟨alongside_change d _ _, hput _ (Bool.not_eq_true _ ▸ hfile)⟩

end Alongside

end Directory

namespace Site

/-- Two states of a site with the same folders and the same request to
stop, if any. -/
structure Alongside (s s' : Site) : Prop where
  directory : s.directory.Alongside s'.directory
  token : s'.token = s.token

theorem Alongside.refl (s : Site) : Alongside s s := ⟨.refl _, rfl⟩

theorem Alongside.trans {s s' s'' : Site} (h : Alongside s s') (h' : Alongside s' s'') :
    Alongside s s'' :=
  ⟨h.directory.trans h'.directory, h'.token.trans h.token⟩

/-- Besides, the file of a name has the same bytes. -/
structure Spares (name : String) (s s' : Site) : Prop extends Alongside s s' where
  bytes : s'.directory.bytesAt name = s.directory.bytesAt name

theorem Spares.refl (name : String) (s : Site) : Spares name s s := ⟨.refl s, rfl⟩

theorem Spares.trans {name : String} {s s' s'' : Site} (h : Spares name s s')
    (h' : Spares name s' s'') : Spares name s s'' :=
  ⟨h.toAlongside.trans h'.toAlongside, h'.bytes.trans h.bytes⟩

theorem spares_warn (name : String) (s : Site) (text : String) : Spares name s (s.warn text) :=
  ⟨⟨.refl _, rfl⟩, rfl⟩

theorem spares_fail (name : String) (s : Site) (text : String) : Spares name s (s.fail text) :=
  ⟨⟨.refl _, rfl⟩, rfl⟩

end Site

/-! ## Observers -/

namespace Observer

/-- An observer that leaves the file of a name alone, wherever it is asked
to do something beside a site. -/
def Spares (name : String) (s : Site) (o : Observer) : Prop :=
  ∀ e s', s.Alongside s' → s'.Spares name (o e s')

variable {name : String} {s : Site}

theorem Spares.alongside {o : Observer} {s₁ : Site} (h : o.Spares name s)
    (hs : s.Alongside s₁) : o.Spares name s₁ := fun e s' hs' => h e s' (hs.trans hs')

theorem spares_silent : silent.Spares name s := fun _ s' _ => .refl name s'

theorem spares_noting (observer : String) : (noting observer).Spares name s :=
  fun _ _ _ => ⟨⟨.refl _, rfl⟩, rfl⟩

theorem spares_console : console.Spares name s := by
  intro e s' _
  unfold console
  split
  · exact ⟨⟨.refl _, rfl⟩, rfl⟩
  · exact .refl name s'

theorem spares_ofFailures {o : Observer} (h : o.Spares name s) : (ofFailures o).Spares name s := by
  intro e s' hs
  cases e with
  | failed => exact h _ s' hs
  | alerted => exact h _ s' hs
  | _ => exact .refl name s'

theorem spares_all {os : List Observer} (h : ∀ o ∈ os, o.Spares name s) :
    (all os).Spares name s := by
  intro e s' hs
  unfold all
  induction os generalizing s' with
  | nil => exact .refl name s'
  | cons o os ih =>
    have hfirst := h o List.mem_cons_self e s' hs
    exact hfirst.trans (ih (fun o ho => h o (List.mem_cons_of_mem _ ho)) _
      (hs.trans hfirst.toAlongside))

/-- A log file is another file where its name leads somewhere else. -/
theorem spares_file {path : String} (hpath : (s.directory.openToAppend path).1 ≠ .ok name) :
    (file path).Spares name s := by
  intro e s' hs
  obtain ⟨halong, hbytes⟩ := s'.directory.openToAppend_spares path
  unfold file
  cases hopen : s'.directory.openToAppend path with
  | mk outcome directory =>
    rw [hopen] at halong hbytes
    cases outcome with
    | error e => exact ⟨⟨halong, rfl⟩, hbytes name⟩
    | ok opened =>
      have hne : name ≠ opened := by
        rintro rfl
        exact hpath (hs.directory.symm.openToAppend_ok (by rw [hopen]))
      refine ⟨⟨halong.trans (Directory.alongside_change ..), rfl⟩, ?_⟩
      · show (directory.append opened _).bytesAt name = _
        rw [Directory.bytesAt_append, if_neg hne]
        exact hbytes name

end Observer
end Intake
