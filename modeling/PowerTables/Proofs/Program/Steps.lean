import PowerTables.Program.Run
import PowerTables.Proofs.Files

/-!
# Steps of a run on files

How the steps of a run end on files in memory, told without what they print.  Most steps leave the
files as they found them, and so does what is made of such steps.  The two that write make the
folder of a path first and save a content then.

## Main definitions

* `Program.runOn` : how a step is carried out on some files.
* `Program.Ends` : a step ends with a result and leaves some files.
* `Program.Keeps` : a step leaves the files as they were.

## Main results

* `Program.runOn_bind`, `Program.ends_bind_ok` : two steps, one after the other.
* `Program.ends_saveNetwork`, `Program.ends_saveSettings` : how writing ends.
-/

namespace PowerTables.Program

variable {α β : Type}

/-- How a step is carried out on some files, after something was printed. -/
def runOn (x : ProgramM (StateM Files) α) (out : Output) (fs : Files) :
    (Except ProgramError α × Output) × Files := ((x.run.run out).run fs).run

/-- A step that starts on some files can end with a result and leave other files.  What it prints
is left open. -/
def Ends (x : ProgramM (StateM Files) α) (fs : Files) (r : Except ProgramError α) (fs' : Files) :
    Prop :=
  ∃ out out', runOn x out fs = ((r, out'), fs')

/-- A step leaves the files as they were, also when it fails. -/
def Keeps (x : ProgramM (StateM Files) α) : Prop :=
  ∀ fs r fs', Ends x fs r fs' → fs' = fs

variable {x : ProgramM (StateM Files) α} {f : α → ProgramM (StateM Files) β} {fs fs' : Files}

/-! ### How steps end -/

theorem ends_pure {a : α} {r : Except ProgramError α} (h : Ends (pure a) fs r fs') :
    r = .ok a ∧ fs' = fs := by
  obtain ⟨out, out', h⟩ := h
  cases h
  exact ⟨rfl, rfl⟩

theorem ends_throw {e : ProgramError} {r : Except ProgramError α} (h : Ends (throw e) fs r fs') :
    r = .error e ∧ fs' = fs := by
  obtain ⟨out, out', h⟩ := h
  cases h
  exact ⟨rfl, rfl⟩

/-- Two steps, one after the other: the second one is carried out where the first one ends well. -/
theorem runOn_bind (x : ProgramM (StateM Files) α) (f : α → ProgramM (StateM Files) β)
    (out : Output) (fs : Files) : runOn (x >>= f) out fs =
      match runOn x out fs with
      | ((.error e, out₁), fs₁) => ((.error e, out₁), fs₁)
      | ((.ok a, out₁), fs₁) => runOn (f a) out₁ fs₁ := by
  rw [runOn, runOn, ExceptT.run_bind, StateT.run_bind, StateT.run_bind, Id.run_bind]
  rcases ((x.run.run out).run fs).run with ⟨⟨e | a, out₁⟩, fs₁⟩ <;> rfl

theorem runOn_bind_of_ok {a : α} {out out₁ : Output} {fs₁ : Files}
    (h : runOn x out fs = ((.ok a, out₁), fs₁)) :
    runOn (x >>= f) out fs = runOn (f a) out₁ fs₁ := by
  rw [runOn_bind, h]

/-- Two steps end where the first one fails, or where the second one ends. -/
theorem ends_bind {r : Except ProgramError β} (h : Ends (x >>= f) fs r fs') :
    (∃ e, Ends x fs (.error e) fs' ∧ r = .error e) ∨
      ∃ a fs₁, Ends x fs (.ok a) fs₁ ∧ Ends (f a) fs₁ r fs' := by
  obtain ⟨out, out', h⟩ := h
  rw [runOn_bind] at h
  rcases hx : runOn x out fs with ⟨⟨e | a, out₁⟩, fs₁⟩
  · rw [hx] at h
    cases h
    exact .inl ⟨e, ⟨out, out', hx⟩, rfl⟩
  · rw [hx] at h
    exact .inr ⟨a, fs₁, ⟨out, out₁, hx⟩, out₁, out', h⟩

theorem ends_bind_ok {b : β} (h : Ends (x >>= f) fs (.ok b) fs') :
    ∃ a fs₁, Ends x fs (.ok a) fs₁ ∧ Ends (f a) fs₁ (.ok b) fs' := by
  rcases ends_bind h with ⟨e, -, hr⟩ | hrest
  · cases hr
  · exact hrest

theorem ends_print {text : String} {r : Except ProgramError Unit} (h : Ends (print text) fs r fs') :
    r = .ok () ∧ fs' = fs := by
  obtain ⟨out, out', h⟩ := h
  cases h
  exact ⟨rfl, rfl⟩

theorem ends_warn {text : String} {r : Except ProgramError Unit} (h : Ends (warn text) fs r fs') :
    r = .ok () ∧ fs' = fs := by
  obtain ⟨out, out', h⟩ := h
  cases h
  exact ⟨rfl, rfl⟩

theorem ends_ofResult {ε : Type} {wrap : ε → ProgramError} {result : Except ε α}
    {r : Except ProgramError α} (h : Ends (ofResult wrap result) fs r fs') :
    r = result.mapError wrap ∧ fs' = fs := by
  cases result with
  | ok a => exact ends_pure h
  | error e => exact ends_throw h

theorem ends_ofResult_ok {ε : Type} {wrap : ε → ProgramError} {result : Except ε α} {a : α}
    (h : Ends (ofResult wrap result) fs (.ok a) fs') : result = .ok a ∧ fs' = fs := by
  obtain ⟨hr, hfs⟩ := ends_ofResult h
  cases result with
  | ok b => exact ⟨congrArg Except.ok (Except.ok.inj hr).symm, hfs⟩
  | error e => cases hr

theorem ends_onFiles {op : StateM Files α} {r : Except ProgramError α}
    (h : Ends (onFiles op) fs r fs') : r = .ok (op fs).1 ∧ fs' = (op fs).2 := by
  obtain ⟨out, out', h⟩ := h
  cases h
  exact ⟨rfl, rfl⟩

/-- An operation on files that can fail is carried out before its fault counts. -/
theorem ends_onFile {wrap : FileFault → ProgramError} {op : StateM Files (Except FileFault α)}
    {r : Except ProgramError α} (h : Ends (onFile wrap op) fs r fs') :
    r = (op fs).1.mapError wrap ∧ fs' = (op fs).2 := by
  rcases ends_bind h with ⟨e, hop, -⟩ | ⟨result, fs₁, hop, hresult⟩
  · cases (ends_onFiles hop).1
  · obtain ⟨hr, rfl⟩ := ends_onFiles hop
    obtain rfl := Except.ok.inj hr
    exact ends_ofResult hresult

theorem ends_inSession_ok {state : SessionState} {op : SessionM α} {result : α × SessionState}
    (h : Ends (inSession state op) fs (.ok result) fs') :
    op state = .ok result.1 result.2 ∧ fs' = fs := by
  rw [inSession] at h
  split at h
  · next a s hop =>
    obtain ⟨hr, rfl⟩ := ends_pure h
    cases hr
    exact ⟨hop, rfl⟩
  · cases (ends_throw h).1

theorem runOn_inSession {state state' : SessionState} {op : SessionM α} {a : α}
    (h : op state = .ok a state') (out : Output) (fs : Files) :
    runOn (inSession state op) out fs = ((.ok (a, state'), out), fs) := by
  have hrun : op.run state = .ok a state' := h
  rw [inSession, hrun]
  rfl

theorem ends_categoryOf_ok {raw : String} {c : Category}
    (h : Ends (categoryOf raw) fs (.ok c) fs') : Category.parse? raw = some c ∧ fs' = fs := by
  rw [categoryOf] at h
  split at h
  · next d hd =>
    obtain ⟨hr, rfl⟩ := ends_pure h
    cases hr
    exact ⟨hd, rfl⟩
  · cases (ends_throw h).1

theorem ends_of_isOk (x : ProgramM (StateM Files) Unit) (out : Output) (fs : Files)
    (h : (runOn x out fs).1.1.isOk = true) : Ends x fs (.ok ()) (runOn x out fs).2 := by
  rcases hrun : runOn x out fs with ⟨⟨_ | _, out'⟩, fs'⟩
  · rw [hrun] at h
    cases h
  · exact ⟨out, out', hrun⟩

/-! ### Steps that leave the files alone -/

theorem keeps_pure (a : α) : Keeps (pure a) := fun _ _ _ h => (ends_pure h).2

theorem keeps_throw (e : ProgramError) : Keeps (throw e : ProgramM (StateM Files) α) :=
  fun _ _ _ h => (ends_throw h).2

theorem Keeps.bind (hx : Keeps x) (hf : ∀ a, Keeps (f a)) : Keeps (x >>= f) := by
  intro fs r fs' h
  rcases ends_bind h with ⟨e, h, -⟩ | ⟨a, fs₁, h, h'⟩
  · exact hx _ _ _ h
  · rw [hf a _ _ _ h', hx _ _ _ h]

theorem Keeps.ite {p : Prop} [Decidable p] {y : ProgramM (StateM Files) α} (hx : Keeps x)
    (hy : Keeps y) : Keeps (if p then x else y) := by
  split
  · exact hx
  · exact hy

theorem Keeps.forM {l : List α} {f : α → ProgramM (StateM Files) PUnit} (hf : ∀ a, Keeps (f a)) :
    Keeps (l.forM f) := by
  induction l with
  | nil => exact keeps_pure _
  | cons a l ih => exact (hf a).bind fun _ => ih

theorem keeps_print (text : String) : Keeps (print text) :=
  fun _ _ _ h => (ends_print h).2

theorem keeps_warn (text : String) : Keeps (warn text) :=
  fun _ _ _ h => (ends_warn h).2

theorem keeps_ofResult {ε : Type} (wrap : ε → ProgramError) (result : Except ε α) :
    Keeps (ofResult wrap result) :=
  fun _ _ _ h => (ends_ofResult h).2

theorem keeps_home : Keeps (onFiles FileSystem.home) :=
  fun _ _ _ h => (ends_onFiles h).2

theorem keeps_hasPath (path : String) : Keeps (onFiles (FileSystem.hasPath path)) :=
  fun _ _ _ h => (ends_onFiles h).2

theorem keeps_read (wrap : FileFault → ProgramError) (path : String) :
    Keeps (onFile wrap (FileSystem.read path)) :=
  fun _ _ _ h => (ends_onFile h).2

theorem keeps_inSession (state : SessionState) (op : SessionM α) : Keeps (inSession state op) := by
  rw [inSession]
  split
  · exact keeps_pure _
  · exact keeps_throw _

theorem keeps_categoryOf (raw : String) : Keeps (categoryOf raw) := by
  rw [categoryOf]
  split
  · exact keeps_pure _
  · exact keeps_throw _

/-! ### Steps that write -/

theorem files_createFolders (fs : Files) (path : String) :
    ((FileSystem.createFolders path : StateM Files (Except FileFault Unit)) fs).2 =
      (fs.createFolders path).1 := by
  rcases hmade : fs.createFolders path with ⟨made, _ | fault⟩ <;>
  · simp only [FileSystem.createFolders, bind, StateT.bind, get, getThe, MonadStateOf.get,
      StateT.get, pure, hmade]
    rfl

theorem write_run (fs : Files) (path content : String) :
    (FileSystem.write path content : StateM Files (Except FileFault Unit)) fs =
      match fs.save path content with
      | .ok saved => (.ok (), saved)
      | .error fault => (.error fault, fs) := by
  cases hsave : fs.save path content <;>
  · simp only [FileSystem.write, bind, StateT.bind, get, getThe, MonadStateOf.get, StateT.get,
      pure, hsave]
    rfl

/-- The folder of a path is made, also where that fails half-way. -/
theorem ends_makeFolderOf {path : String} {r : Except ProgramError Unit}
    (h : Ends (makeFolderOf path) fs r fs') :
    fs' = (fs.createFolders (FilePath.parent path)).1 := by
  rw [makeFolderOf] at h
  by_cases hfolder : FilePath.parent path = ""
  · rw [if_neg (not_not.mpr hfolder)] at h
    rw [(ends_pure h).2, hfolder]
    rfl
  · rw [if_pos hfolder] at h
    rw [(ends_onFile h).2]
    exact files_createFolders fs (FilePath.parent path)

/-- A content is saved and the path is printed, or nothing is changed. -/
theorem ends_write {wrap : FileFault → ProgramError} {path content line : String}
    {r : Except ProgramError Unit} (h : Ends (do
      onFile wrap (FileSystem.write path content)
      printLine line) fs r fs') :
    (r = .ok () ∧ fs.save path content = .ok fs') ∨ (∃ e, r = .error e) ∧ fs' = fs := by
  have hwrite {r : Except ProgramError Unit} {fs' : Files}
      (h : Ends (onFile wrap (FileSystem.write path content)) fs r fs') :
      (r = .ok () ∧ fs.save path content = .ok fs') ∨ (∃ e, r = .error e) ∧ fs' = fs := by
    obtain ⟨hr, hfs⟩ := ends_onFile h
    rw [write_run] at hr hfs
    cases hsave : fs.save path content with
    | ok saved =>
      rw [hsave] at hr hfs
      exact .inl ⟨hr, congrArg Except.ok hfs.symm⟩
    | error fault =>
      rw [hsave] at hr hfs
      exact .inr ⟨⟨_, hr⟩, hfs⟩
  rcases ends_bind h with ⟨e, hfails, rfl⟩ | ⟨_, fs₁, hsaves, h⟩
  · rcases hwrite hfails with ⟨hr, -⟩ | ⟨-, hfs⟩
    · cases hr
    · exact .inr ⟨⟨e, rfl⟩, hfs⟩
  · rcases hwrite hsaves with ⟨-, hsave⟩ | ⟨⟨e, hr⟩, -⟩
    · obtain ⟨hr, rfl⟩ := ends_print h
      exact .inl ⟨hr, hsave⟩
    · cases hr

/-- A network is saved as its snapshot, or no file is changed. -/
theorem ends_saveNetwork {state : SessionState} {path : String} {r : Except ProgramError Unit}
    (h : Ends (saveNetwork state (some path)) fs r fs') :
    (r = .ok () ∧ ∃ snapshot state', Session.dump state = .ok snapshot state' ∧
      (fs.createFolders (FilePath.parent path)).1.save path snapshot = .ok fs') ∨
    (∃ e, r = .error e) ∧ fs.SameContents fs' := by
  rw [saveNetwork] at h
  have hmade := fs.sameContents_createFolders (FilePath.parent path)
  rcases ends_bind h with ⟨e, hfails, rfl⟩ | ⟨_, fs₁, hfolder, h⟩
  · rw [ends_makeFolderOf hfails]
    exact .inr ⟨⟨e, rfl⟩, hmade⟩
  obtain rfl := ends_makeFolderOf hfolder
  rcases ends_bind h with ⟨e, hfails, rfl⟩ | ⟨⟨snapshot, state'⟩, fs₂, hdump, h⟩
  · rw [keeps_inSession state Session.dump _ _ _ hfails]
    exact .inr ⟨⟨e, rfl⟩, hmade⟩
  obtain ⟨hsnapshot, rfl⟩ := ends_inSession_ok hdump
  rcases ends_write h with ⟨hr, hsave⟩ | ⟨hr, rfl⟩
  · exact .inl ⟨hr, snapshot, state', hsnapshot, hsave⟩
  · exact .inr ⟨hr, hmade⟩

/-- The path of the settings in the home folder. -/
def settingsPath (fs : Files) : String :=
  "/" ++ Text.joinWith "/" fs.home ++ "/.gridframe/config.toml"

theorem ends_settingsPath? {r : Except ProgramError (Option String)}
    (h : Ends settingsPath? fs r fs') : r = .ok (some (settingsPath fs)) ∧ fs' = fs := by
  obtain ⟨out, out', h⟩ := h
  cases h
  exact ⟨rfl, rfl⟩

/-- The default settings are saved, by force or where nothing was found, or no file is changed. -/
theorem ends_saveSettings {explicit : Option String} {force : Bool} {r : Except ProgramError Unit}
    (h : Ends (saveSettings explicit force) fs r fs') :
    (r = .ok () ∧ (force = false → fs.hasPath (explicit.getD (settingsPath fs)) = false) ∧
      (fs.createFolders (FilePath.parent (explicit.getD (settingsPath fs)))).1.save
        (explicit.getD (settingsPath fs)) ({} : Settings).text = .ok fs') ∨
    (∃ e, r = .error e) ∧ fs.SameContents fs' := by
  rw [saveSettings] at h
  rcases ends_bind h with ⟨e, hfails, rfl⟩ | ⟨home, fs₁, hhome, h⟩
  · cases (ends_settingsPath? hfails).1
  obtain ⟨hr, rfl⟩ := ends_settingsPath? hhome
  obtain rfl := Except.ok.inj hr
  have hpath : (explicit <|> some (settingsPath fs₁)) =
      some (explicit.getD (settingsPath fs₁)) := by
    cases explicit <;> rfl
  rw [hpath] at h
  generalize explicit.getD (settingsPath fs₁) = path at h ⊢
  dsimp only at h
  rcases ends_bind h with ⟨e, hfails, rfl⟩ | ⟨found, fs₂, hfound, hcheck⟩
  · cases (ends_onFiles hfails).1
  obtain ⟨hr, rfl⟩ := ends_onFiles hfound
  have hfound : found = fs₂.hasPath path := Except.ok.inj hr
  split at hcheck
  · rcases ends_bind hcheck with ⟨e, hfails, rfl⟩ | ⟨_, fs₃, hthrow, h⟩
    · exact .inr ⟨⟨e, rfl⟩, (ends_throw hfails).2 ▸ .refl fs₂⟩
    · cases (ends_throw hthrow).1
  next hfree =>
  have hmade := fs₂.sameContents_createFolders (FilePath.parent path)
  rcases ends_bind hcheck with ⟨e, hfails, rfl⟩ | ⟨_, fs₃, hfolder, h⟩
  · rw [ends_makeFolderOf hfails]
    exact .inr ⟨⟨e, rfl⟩, hmade⟩
  obtain rfl := ends_makeFolderOf hfolder
  rcases ends_write h with ⟨hr, hsave⟩ | ⟨hr, rfl⟩
  · refine .inl ⟨hr, fun hforce => ?_, hsave⟩
    simpa [hforce, hfound] using hfree
  · exact .inr ⟨hr, hmade⟩

end PowerTables.Program
