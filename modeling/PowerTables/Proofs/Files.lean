import Mathlib.Data.List.Induction
import PowerTables.Files.Memory
import PowerTables.Proofs.Operation

/-!
# Folders and contents

To make folders leaves the contents of all files alone, and to write a file changes the content
at one place only, the one its path leads to.  What was written is read again.

A path can lead to nothing only because a folder on its way is missing.  Once its folder is made,
such a path may lead to a file that was there before: the steps into the new folder and up again
count for nothing.

## Main definitions

* `Files.SameContents` : the same files are there, with the same contents.
* `Files.ChangedAt` : only the file that a path leads to may have another content.
* `Files.DetoursTo` : a path leads to a file only after its folder is made.
* `Files.WellFormed` : files lie in folders and are none themselves.

## Main results

* `Files.sameContents_createFolders` : folders that are made.
* `Files.save_eq_ok`, `Files.content_of_save` : files that are written.
* `Files.not_detoursTo` : paths without steps up.
-/

namespace PowerTables.Files

variable {fs fs' fs'' : Files} {path content : String} {place place' : List String}

/-- The same files are there, with the same contents; folders may have been made. -/
structure SameContents (fs fs' : Files) : Prop where
  home : fs'.home = fs.home
  contents : fs'.contents = fs.contents

namespace SameContents

theorem refl (fs : Files) : SameContents fs fs := ⟨rfl, rfl⟩

theorem trans (h : SameContents fs fs') (h' : SameContents fs' fs'') : SameContents fs fs'' :=
  ⟨h'.home.trans h.home, h'.contents.trans h.contents⟩

theorem contentAt? (h : SameContents fs fs') (place : List String) :
    fs'.contentAt? place = fs.contentAt? place := by
  rw [Files.contentAt?, Files.contentAt?, h.contents]

theorem isFile (h : SameContents fs fs') (place : List String) :
    fs'.isFile place = fs.isFile place := by
  rw [Files.isFile, Files.isFile, h.contentAt?]

end SameContents

/-! ### Folders -/

theorem sameContents_makeFolder {start steps : List String}
    (h : fs.makeFolder start steps = .ok fs') : SameContents fs fs' := by
  obtain ⟨place, -, h⟩ := bind_eq_ok.mp h
  split at h
  · cases h
  · cases h
    exact ⟨rfl, rfl⟩

/-- What a folder that is made keeps, all folders keep that are made for a path. -/
theorem createFolders_keeps {P : Files → Prop} (hfs : P fs)
    (h : ∀ fs fs' start steps, P fs → makeFolder fs start steps = .ok fs' → P fs')
    (path : String) : P (fs.createFolders path).1 := by
  have hneeded (fs : Files) (start steps : List String) (hfs : P fs) :
      P (fs.needFolder start steps).1 := by
    rw [needFolder]
    split
    · next hmade => exact h fs _ start steps hfs hmade
    · exact hfs
  have hmade (start above : List String) : P (fs.makeFolders start above).1 := by
    induction above with
    | nil => exact hfs
    | cons last above ih =>
      have hlast := hneeded fs start (last :: above).reverse hfs
      rw [makeFolders]
      split
      · split
        · next hmade =>
          rw [hmade] at ih
          exact hneeded _ start _ ih
        · exact ih
      · exact hlast
  rw [createFolders]
  split
  · exact hfs
  · exact hmade _ _

/-- To make folders leaves all files alone, also where it fails. -/
theorem sameContents_createFolders (fs : Files) (path : String) :
    SameContents fs (fs.createFolders path).1 :=
  createFolders_keeps (P := SameContents fs) (.refl fs)
    (fun _ _ _ _ h hmade => h.trans (sameContents_makeFolder hmade)) path

/-! ### Writing -/

theorem find?_filter_ne {α κ : Type} [BEq κ] [LawfulBEq κ] (key : α → κ) (l : List α) (k : κ) :
    (l.filter (key · != k)).find? (key · == k) = none := by
  rw [List.find?_eq_none]
  intro a ha
  simpa using (List.mem_filter.mp ha).2

theorem contentAt?_put_self (fs : Files) (place : List String) (content : String) :
    (fs.put place content).contentAt? place = some content := by
  rw [contentAt?, put, List.find?_append, find?_filter_ne]
  simp

theorem contentAt?_put_of_ne (fs : Files) (content : String) (h : place' ≠ place) :
    (fs.put place content).contentAt? place' = fs.contentAt? place' := by
  have hkept : (fs.contents.filter (·.1 != place)).find? (·.1 == place') =
      fs.contents.find? (·.1 == place') := by
    rw [List.find?_filter]
    congr 1
    funext e
    by_cases he : e.1 = place'
    · simp [he, h]
    · simp [he]
  rw [contentAt?, put, List.find?_append, hkept, contentAt?]
  cases fs.contents.find? (·.1 == place') with
  | none => simp [Ne.symm h]
  | some e => rfl

theorem walk_congr (h : fs'.folders = fs.folders) (start steps : List String) :
    fs'.walk start steps = .ok place ↔ fs.walk start steps = .ok place := by
  induction steps generalizing start with
  | nil => rfl
  | cons step rest ih =>
    have hfolder : fs'.isFolder start = fs.isFolder start := by rw [isFolder, isFolder, h]
    rw [walk, walk, hfolder]
    split
    · exact ⟨nofun, nofun⟩
    split
    · exact ih start
    split
    · exact ih start.dropLast
    split
    · exact Iff.rfl
    · exact ih (start ++ [step])

theorem locate_put (fs : Files) (place : List String) (content path : String) :
    (fs.put place content).locate path = .ok place' ↔ fs.locate path = .ok place' := by
  have hfolders : (fs.put place content).folders = fs.folders := rfl
  rw [locate, locate, bind_eq_ok, bind_eq_ok]
  exact exists_congr fun steps => and_congr_right fun _ =>
    walk_congr hfolders (fs.start path) steps

/-- A file is written at the place its path leads to, where there is no folder. -/
theorem save_eq_ok (h : fs.save path content = .ok fs') :
    FilePath.endsInSlash path = false ∧ ∃ place, fs.locate path = .ok place ∧
      fs.isFolder place = false ∧ fs' = fs.put place content := by
  rw [save] at h
  cases hslash : FilePath.endsInSlash path with
  | true =>
    rw [hslash, if_pos rfl] at h
    obtain ⟨steps, -, h⟩ := bind_eq_ok.mp h
    obtain ⟨_, -, h⟩ := bind_eq_ok.mp h
    cases h
  | false =>
    rw [hslash, if_neg Bool.false_ne_true] at h
    obtain ⟨place, hplace, h⟩ := bind_eq_ok.mp h
    cases hfolder : fs.isFolder place with
    | true =>
      rw [hfolder, if_pos rfl] at h
      cases h
    | false =>
      rw [hfolder, if_neg Bool.false_ne_true] at h
      exact ⟨rfl, place, hplace, hfolder, (Except.ok.inj h).symm⟩

/-- What is read is there. -/
theorem hasPath_of_content (h : fs.content path = .ok content) : fs.hasPath path = true := by
  obtain ⟨place, hplace, hread⟩ := bind_eq_ok.mp h
  suffices hthere : (fs.isFolder place || fs.isFile place && !FilePath.endsInSlash path) = true by
    rw [hasPath, hplace, ← hthere]
  cases hfolder : fs.isFolder place with
  | true => rfl
  | false =>
    rw [hfolder] at hread
    rw [isFile]
    cases hfile : fs.contentAt? place with
    | none =>
      rw [hfile] at hread
      cases hread
    | some found =>
      cases hslash : FilePath.endsInSlash path with
      | true =>
        rw [hfile, hslash] at hread
        cases hread
      | false => rfl

/-- What was written is read again. -/
theorem content_of_save (h : fs.save path content = .ok fs') : fs'.content path = .ok content := by
  obtain ⟨hslash, place, hplace, hfolder, rfl⟩ := save_eq_ok h
  have hplace' := (locate_put fs place content path).mpr hplace
  have hfolder' : (fs.put place content).isFolder place = false := hfolder
  rw [Files.content]
  refine bind_eq_ok.mpr ⟨place, hplace', ?_⟩
  simp only [hfolder', contentAt?_put_self, hslash]
  rfl

/-- Only the file that a path leads to may have another content. -/
def ChangedAt (fs : Files) (path : String) (fs' : Files) : Prop :=
  ∃ place, fs'.locate path = .ok place ∧
    ∀ other, other ≠ place → fs'.contentAt? other = fs.contentAt? other

/-- A file that is written after folders were made. -/
theorem changedAt_of_save (h : fs.SameContents fs') (hsave : fs'.save path content = .ok fs'') :
    fs.ChangedAt path fs'' := by
  obtain ⟨-, place, hplace, -, rfl⟩ := save_eq_ok hsave
  refine ⟨place, (locate_put fs' place content path).mpr hplace, fun other hother => ?_⟩
  rw [contentAt?_put_of_ne fs' content hother, h.contentAt?]

/-! ### Paths that lead somewhere only after their folder is made -/

/-- There is nothing at a path, but after its folder is made it leads to a file that was there
before. -/
structure DetoursTo (fs : Files) (path : String) (place : List String) : Prop where
  missing : fs.hasPath path = false
  slash : FilePath.endsInSlash path = false
  leads : (fs.createFolders (FilePath.parent path)).1.locate path = .ok place
  file : fs.isFile place = true

/-- Files lie in folders and are none themselves, and folders lie in folders. -/
structure WellFormed (fs : Files) : Prop where
  file : ∀ place, fs.isFile place = true → fs.isFolder place.dropLast = true
  folder : ∀ place, fs.isFolder place = true → fs.isFolder place.dropLast = true
  apart : ∀ place, fs.isFile place = true → fs.isFolder place = false

/-- No folder is made where there is a file. -/
theorem WellFormed.apart_createFolders (hfs : fs.WellFormed) (path : String)
    {place : List String} (hfile : (fs.createFolders path).1.isFile place = true) :
    (fs.createFolders path).1.isFolder place = false := by
  refine createFolders_keeps
    (P := fun fs => ∀ place, fs.isFile place = true → fs.isFolder place = false) hfs.apart
    (fun fs fs' start steps h hmade place hfile => ?_) path place hfile
  rw [(sameContents_makeFolder hmade).isFile] at hfile
  obtain ⟨made, -, hmade⟩ := bind_eq_ok.mp hmade
  split at hmade
  · cases hmade
  next hfree =>
  cases hmade
  have hne : place ≠ made := by
    rintro rfl
    simp [hfile] at hfree
  have hbefore := h place hfile
  rw [isFolder, Bool.or_eq_false_iff] at hbefore ⊢
  simpa [hne] using hbefore

/-- The folders on the way to something. -/
theorem WellFormed.isFolder_of_prefix (hfs : fs.WellFormed) {above : List String}
    (hplace : fs.isFolder place = true ∨ fs.isFile place = true) {below : List String}
    (hbelow : below ≠ []) (h : place = above ++ below) : fs.isFolder above = true := by
  have hparent : fs.isFolder place.dropLast = true := hplace.elim (hfs.folder _) (hfs.file _)
  induction below using List.reverseRecOn generalizing place with
  | nil => exact absurd rfl hbelow
  | append_singleton below name ih =>
    rw [h, ← List.append_assoc, List.dropLast_concat] at hparent
    by_cases hnil : below = []
    · rwa [hnil, List.append_nil] at hparent
    · exact ih (.inl hparent) hnil rfl (hfs.folder _ hparent)

theorem walk_of_notMem_up {start steps : List String} (hup : FilePath.up ∉ steps)
    (h : fs.walk start steps = .ok place) :
    place = start ++ steps.filter (· != FilePath.stay) := by
  induction steps generalizing start with
  | nil =>
    cases h
    simp
  | cons step rest ih =>
    rw [List.mem_cons, not_or] at hup
    rw [walk] at h
    split at h
    · cases h
    split at h
    · next hstay =>
      rw [ih hup.2 h, hstay, List.filter_cons_of_neg (by simp)]
    split at h
    · next hstep => exact absurd hstep.symm hup.1
    split at h
    · cases h
    next hstay _ _ =>
    rw [ih hup.2 h, List.filter_cons_of_pos (by simpa using hstay), List.append_assoc]
    rfl

/-- Without steps up, folders that are made on the way open no way to a file. -/
theorem WellFormed.walk_of_walk (hfs : fs.WellFormed)
    (hapart : ∀ place, fs'.isFile place = true → fs'.isFolder place = false)
    (hsame : SameContents fs fs') {start steps : List String} (hup : FilePath.up ∉ steps)
    (h : fs'.walk start steps = .ok place) (hfile : fs.isFile place = true) :
    fs.walk start steps = .ok place := by
  induction steps generalizing start with
  | nil => exact h
  | cons step rest ih =>
    have hplace := walk_of_notMem_up hup h
    have hfolder' : fs'.isFolder start = true := by
      rw [walk] at h
      split at h
      · cases h
      · next hstart => simpa using hstart
    have hfolder : fs.isFolder start = true := by
      refine hfs.isFolder_of_prefix (.inr hfile) (fun hnil => ?_) hplace
      rw [hnil, List.append_nil] at hplace
      rw [← hplace, hapart place (hsame.isFile place ▸ hfile)] at hfolder'
      cases hfolder'
    rw [List.mem_cons, not_or] at hup
    rw [walk, hfolder', Bool.not_true, if_neg Bool.false_ne_true] at h
    rw [walk, hfolder, Bool.not_true, if_neg Bool.false_ne_true]
    split at h
    · next hstay =>
      rw [if_pos hstay]
      exact ih hup.2 h
    next hstay =>
    rw [if_neg hstay]
    split at h
    · next hstep => exact absurd hstep.symm hup.1
    next hstep =>
    rw [if_neg hstep]
    split at h
    · cases h
    · next hlength =>
      rw [if_neg hlength]
      exact ih hup.2 h

/-- A path without steps up does not lead to a file that it did not lead to before. -/
theorem not_detoursTo (hfs : fs.WellFormed) (hup : FilePath.up ∉ FilePath.steps path)
    (place : List String) : ¬fs.DetoursTo path place := by
  intro h
  have hsame := sameContents_createFolders fs (FilePath.parent path)
  obtain ⟨steps, hsteps, hwalk⟩ := bind_eq_ok.mp h.leads
  have hsteps' : steps = FilePath.steps path := by
    rw [stepsOf] at hsteps
    split at hsteps
    · cases hsteps
    split at hsteps
    · cases hsteps
    · exact (Except.ok.inj hsteps).symm
  have hstart : (fs.createFolders (FilePath.parent path)).1.start path = fs.start path := by
    rw [start, start, hsame.home]
  rw [hstart] at hwalk
  have hlocate : fs.locate path = .ok place := bind_eq_ok.mpr ⟨steps, hsteps,
    hfs.walk_of_walk (fun _ => hfs.apart_createFolders _) hsame (hsteps' ▸ hup) hwalk h.file⟩
  have hmissing := h.missing
  rw [hasPath, hlocate] at hmissing
  simp [h.file, h.slash] at hmissing

end PowerTables.Files
