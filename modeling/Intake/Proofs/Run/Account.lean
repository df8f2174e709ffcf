import Intake.Proofs.Site.Frame
import Intake.Run.Rejects
/-!
# The account of rejected records

What the account of a run's rejected records comes to, record by record:
it counts them, and the file that it keeps them in gains their bytes in
their order (`Rejects.Keeps`). Part of these bytes may still wait to be
written; what stands in the file and what waits are together what there
should be, and a flush leaves nothing waiting.

The file must be one that can be opened, and nothing else may write to
it: whatever the run does in between is something that spares it
(`Rejects.Keeps.of_spares`).
-/

namespace Intake

namespace BadFile

/-- A file that is kept under a path holds some bytes, with those that
still wait to be written to it. -/
structure Keeps (path name : String) (b : BadFile) (d : Directory) (bs : Bytes) : Prop where
  path_eq : b.path = some path
  opens : (d.openToAppend path).1 = .ok name
  opened : b.opened = none ∧ b.waiting = [] ∨ b.opened = some name
  bytes : d.bytesAt name ++ b.waiting = bs

section Keeps

variable {path name : String} {b : BadFile} {d : Directory} {bs : Bytes}

theorem Keeps.of_same {d' : Directory} (h : b.Keeps path name d bs) (halong : d.Alongside d')
    (hbytes : d'.bytesAt name = d.bytesAt name) : b.Keeps path name d' bs where
  path_eq := h.path_eq
  opens := halong.openToAppend_ok h.opens
  opened := h.opened
  bytes := by rw [hbytes, h.bytes]

theorem flush_of_opened (hopened : b.opened = some name) (d : Directory) :
    b.flush d = ({ b with waiting := [] }, d.append name b.waiting) := by
  unfold BadFile.flush
  split
  · next hnone => cases hopened.symm.trans hnone
  · next hsome =>
    obtain rfl := Option.some.inj (hopened.symm.trans hsome)
    rfl

/-- After a flush all of the bytes are in the file. -/
theorem Keeps.flush (h : b.Keeps path name d bs) :
    (b.flush d).1.Keeps path name (b.flush d).2 bs ∧ d.Alongside (b.flush d).2 ∧
      (b.flush d).2.bytesAt name = bs := by
  rcases h.opened with ⟨hopened, hwaiting⟩ | hopened
  · have hbytes := h.bytes
    rw [hwaiting, List.append_nil] at hbytes
    have hsame : b.flush d = (b, d) := by
      unfold BadFile.flush
      rw [hopened]
    rw [hsame]
    exact ⟨h, .refl d, hbytes⟩
  · have hbytes : (d.append name b.waiting).bytesAt name = bs := by
      rw [Directory.bytesAt_append, if_pos rfl, h.bytes]
    have halong : d.Alongside (d.append name b.waiting) := d.alongside_change _ _
    rw [flush_of_opened hopened]
    exact ⟨⟨h.path_eq, halong.openToAppend_ok h.opens, .inr hopened,
      (List.append_nil _).trans hbytes⟩, halong, hbytes⟩

/-- What is written to an open file comes after what is there. -/
theorem Keeps.write (h : b.Keeps path name d bs) (hopened : b.opened = some name)
    (record : Bytes) :
    (b.write name record d).1.Keeps path name (b.write name record d).2 (bs ++ record) ∧
      d.Alongside (b.write name record d).2 := by
  have hroom : ∃ b' d', (if capacity < b.waiting.length + record.length then b.flush d
      else (b, d)) = (b', d') ∧ b'.Keeps path name d' bs ∧ d.Alongside d' ∧
      b'.opened = some name ∧ (capacity ≤ record.length → b'.waiting = []) := by
    split
    · obtain ⟨hkeeps, halong, -⟩ := h.flush
      rw [flush_of_opened hopened] at hkeeps halong ⊢
      exact ⟨_, _, rfl, hkeeps, halong, hopened, fun _ => rfl⟩
    · next hfits =>
      refine ⟨b, d, rfl, h, .refl d, hopened, fun hlarge => ?_⟩
      exact List.eq_nil_of_length_eq_zero (by omega)
  obtain ⟨b', d', hpair, hkeeps, halong, hopened', hempty⟩ := hroom
  unfold BadFile.write
  rw [hpair]
  dsimp only
  split
  · next hlarge =>
    have hbytes := hkeeps.bytes
    rw [hempty hlarge, List.append_nil] at hbytes
    have hadd : d'.Alongside (d'.append name record) := d'.alongside_change _ _
    refine ⟨⟨hkeeps.path_eq, hadd.openToAppend_ok hkeeps.opens, .inr hopened', ?_⟩,
      halong.trans hadd⟩
    rw [hempty hlarge, List.append_nil, Directory.bytesAt_append, if_pos rfl, hbytes]
  · refine ⟨⟨hkeeps.path_eq, hkeeps.opens, .inr hopened', ?_⟩, halong⟩
    show d'.bytesAt name ++ (b'.waiting ++ record) = bs ++ record
    rw [← List.append_assoc, hkeeps.bytes]

/-- **A record that is added comes after what is there**, in the file or
waiting for it. -/
theorem Keeps.append (h : b.Keeps path name d bs) (record : Bytes) :
    ∃ b' d', b.append record d = (.ok (), b', d') ∧ b'.Keeps path name d' (bs ++ record) ∧
      d.Alongside d' := by
  unfold BadFile.append
  split
  · next hnone => cases h.path_eq.symm.trans hnone
  next path' hpath =>
  obtain rfl := Option.some.inj (h.path_eq.symm.trans hpath)
  split
  · next opened hsome =>
    have hopened : b.opened = some name := by
      rcases h.opened with ⟨hnone, -⟩ | hopened
      · cases hnone.symm.trans hsome
      · exact hopened
    obtain rfl := Option.some.inj (hopened.symm.trans hsome)
    obtain ⟨hkeeps, halong⟩ := h.write hopened record
    exact ⟨_, _, rfl, ⟨hkeeps.path_eq, hkeeps.opens, hkeeps.opened, hkeeps.bytes⟩, halong⟩
  · next hnone =>
    obtain ⟨halong, hspared⟩ := d.openToAppend_spares path
    have hopens := h.opens
    generalize d.openToAppend path = out at halong hspared hopens
    obtain ⟨outcome, d₁⟩ := out
    obtain rfl : outcome = .ok name := hopens
    have hfirst : ({ b with opened := some name } : BadFile).Keeps path name d₁ bs :=
      ⟨h.path_eq, halong.openToAppend_ok h.opens, .inr rfl, by rw [hspared name]; exact h.bytes⟩
    obtain ⟨hkeeps, halong'⟩ := hfirst.write rfl record
    exact ⟨_, _, rfl, ⟨hkeeps.path_eq, hkeeps.opens, hkeeps.opened, hkeeps.bytes⟩,
      halong.trans halong'⟩

end Keeps

end BadFile

namespace Rejects

/-- An account under a limit that has rejected some records: their bytes
come after those that the file had before. -/
structure Keeps (limit : Limit) (path name : String) (before : Bytes) (r : Rejects) (s : Site)
    (bad : List Bytes) : Prop where
  limit_eq : r.limit = limit
  count_eq : r.count = bad.length
  file : r.file.Keeps path name s.directory (before ++ bad.flatten)

variable {limit : Limit} {path name : String} {before : Bytes} {r : Rejects} {s : Site}
  {bad : List Bytes}

theorem Keeps.of_spares {s' : Site} (h : r.Keeps limit path name before s bad)
    (hs : s.Spares name s') : r.Keeps limit path name before s' bad :=
  ⟨h.limit_eq, h.count_eq, h.file.of_same hs.directory hs.bytes⟩

theorem Keeps.flush (h : r.Keeps limit path name before s bad) :
    (r.flush s).1.Keeps limit path name before (r.flush s).2 bad ∧
      s.Alongside (r.flush s).2 ∧
      (r.flush s).2.directory.bytesAt name = before ++ bad.flatten ∧
      (r.flush s).1.observer = r.observer := by
  obtain ⟨hkeeps, halong, hbytes⟩ := h.file.flush
  exact ⟨⟨h.limit_eq, h.count_eq, hkeeps⟩, ⟨halong, rfl⟩, hbytes, rfl⟩

/-- **One record more on the account.** The record is kept, also if it is
the one that is too many. -/
theorem Keeps.reject (h : r.Keeps limit path name before s bad)
    (hobserver : r.observer.Spares name s) (record : Nat) (raw : Bytes) (rejection : Rejection) :
    ∃ r' s', r.reject record raw rejection s
        = (if limit.exceededBy (bad.length + 1)
            then .error (.parseErrorLimit (bad.length + 1) limit.number) else .ok (), r', s') ∧
      r'.Keeps limit path name before s' (bad ++ [raw]) ∧ s.Alongside s' ∧
      r'.observer = r.observer := by
  obtain ⟨rfl, hcount, hfile⟩ := h
  rw [← hcount]
  have hwarn := s.spares_warn name
    (({ r with count := r.count + 1 } : Rejects).logText raw rejection.message)
  have hnoted := hobserver (.rejected r.context rejection.kind record rejection.message) _
    hwarn.toAlongside
  have hspares := hwarn.trans hnoted
  obtain ⟨file, directory, happend, hkeeps, halong⟩ :=
    (hfile.of_same hspares.directory hspares.bytes).append raw
  generalize hsite : r.observer (.rejected r.context rejection.kind record rejection.message)
    (s.warn (({ r with count := r.count + 1 } : Rejects).logText raw rejection.message)) = site
    at happend halong hspares
  have hcounted : ({ r with count := r.count + 1, file := file } : Rejects).Keeps r.limit path
      name before { site with directory := directory } (bad ++ [raw]) := by
    refine ⟨rfl, ?_, ?_⟩
    · show r.count + 1 = (bad ++ [raw]).length
      rw [hcount, List.length_append]
      rfl
    · rw [List.flatten_append, List.flatten_singleton, ← List.append_assoc]
      exact hkeeps
  have hbeside : s.Alongside { site with directory := directory } :=
    hspares.toAlongside.trans ⟨halong, rfl⟩
  unfold Rejects.reject
  dsimp only
  rw [hsite, happend]
  dsimp only
  split
  · obtain ⟨hkept, hflush, -, hobserved⟩ := hcounted.flush
    exact ⟨_, _, rfl, hkept, hbeside.trans hflush, hobserved⟩
  · exact ⟨_, _, rfl, hcounted, hbeside, rfl⟩

end Rejects
end Intake
