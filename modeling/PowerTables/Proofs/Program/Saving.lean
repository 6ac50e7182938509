import PowerTables.Proofs.Program.Steps

/-!
# What runs do to files

The last step of a command is the only one that may write, and it writes one file.  So a run that
fails leaves all files alone, wherever it fails, and a run that succeeds changes at most the file
that it is told to write.  Settings are made without force only where their path leads to nothing;
whether it does is asked before the folder of the path is made, and the folder may open a way to a
file that was there.

## Main definitions

* `Request.target?` : the path that a request writes to.
* `Program.Saves` : a step writes at most one file, and none when it fails.

## Main results

* `Program.saves_steps` : the steps of every request.
* `Program.keeps_of_initSettings` : settings at a path without steps up replace no file.
* `Program.run_files` : what runs do to files.
-/

namespace PowerTables

/-- The path that a command is given to write to. -/
def Command.output? : Command → Option String
  | .update _ _ _ _ output | .toggle _ _ _ output | .dump _ output
  | .cloneVariant _ _ _ _ _ output | .removeVariant _ _ output => output
  | _ => none

/-- The path that a request writes to: that of its command, or that of the settings that are to be
made. -/
def Request.target? (request : Request) (fs : Files) : Option String :=
  match request.command with
  | some (.initSettings _) => some (request.settings.getD (Program.settingsPath fs))
  | some command => command.output?
  | none => none

namespace Program

/-- A step that fails leaves all files alone, and one that succeeds changes at most the file of a
path. -/
structure Saves (target : Files → Option String) (x : ProgramM (StateM Files) Unit) : Prop where
  error : ∀ fs e fs', Ends x fs (.error e) fs' → fs.SameContents fs'
  ok : ∀ fs fs', Ends x fs (.ok ()) fs' →
    fs.SameContents fs' ∨ ∃ path, target fs = some path ∧ fs.ChangedAt path fs'

variable {α : Type} {target : Files → Option String} {x : ProgramM (StateM Files) α}
  {f : α → ProgramM (StateM Files) Unit}

theorem Keeps.saves {x : ProgramM (StateM Files) Unit} (hx : Keeps x)
    (target : Files → Option String) : Saves target x :=
  ⟨fun fs _ _ h => hx _ _ _ h ▸ .refl fs, fun fs _ h => .inl (hx _ _ _ h ▸ .refl fs)⟩

/-- Only the last step of several may write. -/
theorem Saves.bind (hx : Keeps x) (hf : ∀ a, Saves target (f a)) : Saves target (x >>= f) := by
  constructor
  · intro fs e fs' h
    rcases ends_bind h with ⟨e', h, -⟩ | ⟨a, fs₁, hfirst, h⟩
    · exact hx _ _ _ h ▸ .refl fs
    · exact hx _ _ _ hfirst ▸ (hf a).error fs₁ e fs' h
  · intro fs fs' h
    obtain ⟨a, fs₁, hfirst, hlast⟩ := ends_bind_ok h
    obtain rfl := hx _ _ _ hfirst
    exact (hf a).ok fs₁ fs' hlast

/-! ### Networks and settings -/

theorem keeps_openSource (source : NetworkSource) :
    Keeps (openSource source : ProgramM (StateM Files) SessionState) := by
  cases source with
  | sample s =>
    rw [openSource]
    split
    · exact keeps_pure _
    · exact keeps_throw _
  | snapshot path =>
    refine (keeps_hasPath path).bind fun found => ?_
    -- What follows the check stands in both of its branches.
    refine .ite ((keeps_throw _).bind fun _ => ?_) ?_
    all_goals
      refine (keeps_read _ path).bind fun text => ?_
      split
      · exact keeps_pure _
      · exact keeps_throw _

theorem keeps_openNetwork (source : String) (settings : Settings) :
    Keeps (openNetwork source settings : ProgramM (StateM Files) SessionState) :=
  (keeps_openSource _).bind fun state =>
    (keeps_inSession state _).bind fun (_, state) => keeps_pure state

theorem keeps_readSettings (path : String) :
    Keeps (readSettings path : ProgramM (StateM Files) Settings) := by
  refine (keeps_read _ path).bind fun text => ?_
  split
  · exact keeps_pure _
  · exact keeps_throw _

theorem keeps_settingsOf (request : Request) :
    Keeps (settingsOf request : ProgramM (StateM Files) Settings) := by
  have hload (explicit : Option String) :
      Keeps (loadSettings explicit : ProgramM (StateM Files) Settings) := by
    cases explicit with
    | some path => exact keeps_readSettings path
    | none =>
      refine (keeps_home.bind fun home => keeps_pure _).bind fun path => ?_
      split
      · exact (keeps_hasPath _).bind fun found => (keeps_readSettings _).ite (keeps_pure _)
      · exact keeps_pure _
  rw [settingsOf]
  split
  · exact keeps_pure _
  · exact hload request.settings

theorem saves_saveNetwork (state : SessionState) (output : Option String) :
    Saves (fun _ => output) (saveNetwork state output) := by
  cases output with
  | none => exact (keeps_pure ()).saves _
  | some path =>
    constructor
    · intro fs e fs' h
      rcases ends_saveNetwork h with ⟨hr, -⟩ | ⟨-, hsame⟩
      · cases hr
      · exact hsame
    · intro fs fs' h
      rcases ends_saveNetwork h with ⟨-, _, _, -, hsave⟩ | ⟨⟨_, hr⟩, -⟩
      · exact .inr ⟨path, rfl, fs.changedAt_of_save (fs.sameContents_createFolders _) hsave⟩
      · cases hr

theorem saves_saveSettings (explicit : Option String) (force : Bool) :
    Saves (fun fs => some (explicit.getD (settingsPath fs))) (saveSettings explicit force) := by
  constructor
  · intro fs e fs' h
    rcases ends_saveSettings h with ⟨hr, -⟩ | ⟨-, hsame⟩
    · cases hr
    · exact hsame
  · intro fs fs' h
    rcases ends_saveSettings h with ⟨-, -, hsave⟩ | ⟨⟨_, hr⟩, -⟩
    · exact .inr ⟨_, rfl, fs.changedAt_of_save (fs.sameContents_createFolders _) hsave⟩
    · cases hr

/-! ### Commands -/

theorem keeps_showElements (source category : String) (columns : List String)
    (variant : Option String) (format : TableFormat) (settings : Settings) :
    Keeps (showElements source category columns variant format settings :
      ProgramM (StateM Files) Unit) := by
  refine (keeps_categoryOf category).bind fun c => ?_
  refine (keeps_openNetwork source settings).bind fun state => ?_
  refine (keeps_inSession state _).bind fun (t, state) => ?_
  have hwarn : Keeps (warnOfIssues state.session.diagnostics : ProgramM (StateM Files) Unit) :=
    (keeps_pure ()).ite ((keeps_warn _).bind fun _ => .forM fun issue => keeps_warn issue.text)
  refine hwarn.bind fun _ => ?_
  cases format with
  | plain =>
    exact ((keeps_pure t).bind fun _ => keeps_print _).ite
      ((keeps_ofResult _ _).bind fun _ => keeps_print _)
  | json =>
    exact ((keeps_pure t).bind fun _ => keeps_print _).ite
      ((keeps_ofResult _ _).bind fun _ => keeps_print _)

theorem keeps_showIds (source category : String) (nominalVoltages : List Float)
    (countries : List String) (settings : Settings) :
    Keeps (showIds source category nominalVoltages countries settings :
      ProgramM (StateM Files) Unit) := by
  refine (keeps_categoryOf category).bind fun c => ?_
  refine (keeps_openNetwork source settings).bind fun state => ?_
  exact (keeps_inSession state _).bind fun (ids, _) => .forM fun id => keeps_print _

theorem keeps_listVariants (source : String) (settings : Settings) :
    Keeps (listVariants source settings : ProgramM (StateM Files) Unit) :=
  (keeps_openNetwork source settings).bind fun state =>
    (keeps_inSession state _).bind fun _ => keeps_print _

theorem saves_update (source category : String) (assignments : List String)
    (variant output : Option String) (settings : Settings) :
    Saves (fun _ => output) (update source category assignments variant output settings) := by
  refine .bind (keeps_categoryOf category) fun c => .bind (keeps_ofResult _ _) fun as => ?_
  refine .bind (keeps_openNetwork source settings) fun state => ?_
  refine .bind (keeps_inSession state _) fun (_, state) => ?_
  refine .bind (keeps_ofResult _ _) fun tables => ?_
  refine .bind (keeps_inSession state _) fun (t, state) => .bind (keeps_ofResult _ _) fun t => ?_
  exact .bind (keeps_print _) fun _ => saves_saveNetwork state output

theorem saves_toggle (source : String) (action : ToggleAction) (id : String)
    (output : Option String) (settings : Settings) :
    Saves (fun _ => output) (toggle source action id output settings) :=
  .bind (keeps_openNetwork source settings) fun state =>
    .bind (keeps_inSession state _) fun (_, state) =>
      .bind (keeps_print _) fun _ => saves_saveNetwork state output

theorem saves_dump (source : String) (output : Option String) (settings : Settings) :
    Saves (fun _ => output) (dump source output settings) := by
  refine .bind (keeps_openNetwork source settings) fun state => ?_
  cases output with
  | some path => exact saves_saveNetwork state (some path)
  | none => exact ((keeps_inSession state _).bind fun _ => keeps_print _).saves _

theorem saves_cloneVariant (source fromId toId : String) (overwrite select : Bool)
    (output : Option String) (settings : Settings) :
    Saves (fun _ => output)
      (cloneVariant source fromId toId overwrite select output settings) :=
  .bind (keeps_openNetwork source settings) fun state =>
    .bind (keeps_inSession state _) fun (_, state) =>
      .bind (keeps_print _) fun _ => saves_saveNetwork state output

theorem saves_removeVariant (source id : String) (output : Option String) (settings : Settings) :
    Saves (fun _ => output) (removeVariant source id output settings) :=
  .bind (keeps_openNetwork source settings) fun state =>
    .bind (keeps_inSession state _) fun (_, state) =>
      .bind (keeps_print _) fun _ => saves_saveNetwork state output

/-- Whatever is asked for, only the file that is to be written can change, and only if all goes
well. -/
theorem saves_steps (request : Request) : Saves request.target? (steps request) := by
  refine .bind (keeps_settingsOf request) fun file => ?_
  have htarget : request.target? = fun fs => match request.command with
    | some (.initSettings _) => some (request.settings.getD (settingsPath fs))
    | some command => command.output?
    | none => none := rfl
  rw [htarget, perform]
  cases request.command with
  | none => exact (keeps_print _).saves _
  | some command =>
    cases command with
    | categories => exact (keeps_print _).saves _
    | columns category => exact ((keeps_categoryOf category).bind fun c => keeps_print _).saves _
    | demo => exact ((keeps_ofResult _ _).bind fun text => keeps_print text).saves _
    | elements source category columns variant format =>
      exact (keeps_showElements source category columns variant format _).saves _
    | ids source category nominalVoltages countries =>
      exact (keeps_showIds source category nominalVoltages countries _).saves _
    | update source category assignments variant output =>
      exact saves_update source category assignments variant output _
    | toggle source action id output => exact saves_toggle source action id output _
    | dump source output => exact saves_dump source output _
    | listVariants source => exact (keeps_listVariants source _).saves _
    | cloneVariant source fromId toId overwrite select output =>
      exact saves_cloneVariant source fromId toId overwrite select output _
    | removeVariant source id output => exact saves_removeVariant source id output _
    | showSettings => exact (keeps_print _).saves _
    | initSettings force => exact saves_saveSettings request.settings force

/-! ### Runs -/

/-- A run for a request is made of the steps of the request, and its code tells how they end. -/
theorem run_of_parse {arguments : List String} {request : Request}
    (h : Request.parse arguments = .ok request) (logFilter : Option String) (fs : Files) :
    let left := (run logFilter arguments : StateM Files RunResult).run fs
    ∃ r, Ends (steps request) fs r left.2 ∧ (left.1.code = 0 ↔ r = .ok ()) := by
  intro left
  rcases hsteps : runOn (steps request) {} fs with ⟨⟨r, out⟩, fs'⟩
  have hleft : left.2 = fs' ∧ (left.1.code = 0 ↔ r = .ok ()) := by
    have hrun : left = ((run logFilter arguments : StateM Files RunResult).run fs).run := rfl
    rw [run, h] at hrun
    dsimp only at hrun
    rw [StateT.run_bind, Id.run_bind, ← runOn, hsteps] at hrun
    cases r with
    | ok _ =>
      rw [hrun]
      exact ⟨rfl, iff_of_true rfl rfl⟩
    | error e =>
      rw [hrun]
      exact ⟨rfl, iff_of_false Nat.one_ne_zero fun hr => by cases hr⟩
  exact ⟨r, ⟨{}, out, by rw [hsteps, hleft.1]⟩, hleft.2⟩

/-- Settings that are made without force replace a file exactly if their path leads to it only
after its folder is made. -/
theorem keeps_iff_of_initSettings {request : Request}
    (hcommand : request.command = some (.initSettings false)) {fs fs' : Files}
    (h : Ends (steps request) fs (.ok ()) fs') :
    (∀ place content, fs.contentAt? place = some content →
        fs'.contentAt? place = some content) ↔
      ∀ place, fs.DetoursTo (request.settings.getD (settingsPath fs)) place →
        fs.contentAt? place = some ({} : Settings).text := by
  obtain ⟨file, fs₁, hsettings, hsaves⟩ := ends_bind_ok h
  obtain rfl := keeps_settingsOf request _ _ _ hsettings
  rw [perform, hcommand] at hsaves
  rcases ends_saveSettings hsaves with ⟨-, hmissing, hsave⟩ | ⟨⟨_, hr⟩, -⟩
  · generalize request.settings.getD (settingsPath fs₁) = path at hmissing hsave ⊢
    have hsame := fs₁.sameContents_createFolders (FilePath.parent path)
    obtain ⟨hslash, place, hplace, -, rfl⟩ := Files.save_eq_ok hsave
    constructor
    · intro hkept other hdetours
      obtain rfl : place = other := Except.ok.inj (hplace.symm.trans hdetours.leads)
      obtain ⟨content, hcontent⟩ := Option.isSome_iff_exists.mp hdetours.file
      rw [hcontent, ← hkept place content hcontent, Files.contentAt?_put_self]
    · intro hdefault other content hcontent
      by_cases hother : other = place
      · subst hother
        have hfile : fs₁.isFile other = true := by rw [Files.isFile, hcontent, Option.isSome_some]
        rw [Files.contentAt?_put_self, ← hcontent,
          hdefault other ⟨hmissing rfl, hslash, hplace, hfile⟩]
      · rw [Files.contentAt?_put_of_ne _ _ hother, hsame.contentAt?, hcontent]
  · cases hr

/-- Settings at a path without steps up replace no file, unless that is forced. -/
theorem keeps_of_initSettings {request : Request}
    (hcommand : request.command = some (.initSettings false)) {fs fs' : Files}
    (hfs : fs.WellFormed)
    (hup : FilePath.up ∉ FilePath.steps (request.settings.getD (settingsPath fs)))
    (h : Ends (steps request) fs (.ok ()) fs') :
    ∀ place content, fs.contentAt? place = some content → fs'.contentAt? place = some content :=
  (keeps_iff_of_initSettings hcommand h).mpr fun place hdetours =>
    absurd hdetours (Files.not_detoursTo hfs hup place)

/-- A run that fails leaves all files alone, and one that succeeds changes at most the file that
it is told to write.  Settings that are made without force replace a file exactly if their path
leads to it by way of a folder that has to be made first. -/
theorem run_files (logFilter : Option String) (arguments : List String) (fs : Files) :
    let left := (run logFilter arguments : StateM Files RunResult).run fs
    (left.1.code ≠ 0 → fs.SameContents left.2) ∧
    (left.1.code = 0 → fs.SameContents left.2 ∨ ∃ request path,
      Request.parse arguments = .ok request ∧ request.target? fs = some path ∧
        fs.ChangedAt path left.2) ∧
    ∀ request, Request.parse arguments = .ok request →
      request.command = some (.initSettings false) → left.1.code = 0 →
      ((∀ place content, fs.contentAt? place = some content →
          left.2.contentAt? place = some content) ↔
        ∀ place, fs.DetoursTo (request.settings.getD (settingsPath fs)) place →
          fs.contentAt? place = some ({} : Settings).text) := by
  intro left
  cases hparse : Request.parse arguments with
  | error refusal =>
    have hleft : left = (refused refusal, fs) := by
      rw [show left = (run logFilter arguments : StateM Files RunResult).run fs from rfl, run,
        hparse]
      rfl
    rw [hleft]
    exact ⟨fun _ => .refl fs, fun _ => .inl (.refl fs), fun _ hrequest => by cases hrequest⟩
  | ok request =>
    obtain ⟨r, hends, hcode⟩ := run_of_parse hparse logFilter fs
    refine ⟨fun hfails => ?_, fun hsucceeds => ?_, ?_⟩
    · cases r with
      | ok _ => exact absurd (hcode.mpr rfl) hfails
      | error e => exact (saves_steps request).error fs e _ hends
    · obtain rfl := hcode.mp hsucceeds
      refine ((saves_steps request).ok fs _ hends).imp_right ?_
      rintro ⟨path, htarget, hchanged⟩
      exact ⟨request, path, rfl, htarget, hchanged⟩
    · rintro _ ⟨⟩ hcommand hsucceeds
      obtain rfl := hcode.mp hsucceeds
      exact keeps_iff_of_initSettings hcommand hends

/-- A file in a folder. -/
def ownSettings : Files := ⟨[], [["a"]], [(["a", "c.toml"], "# mine\n")]⟩

theorem run_replaces_ownSettings :
    ((run none ["config", "init", "--config", "a/b/../c.toml"] :
        StateM Files RunResult).run ownSettings).1.code = 0 ∧
      ownSettings.contentAt? ["a", "c.toml"] = some "# mine\n" ∧
      ((run none ["config", "init", "--config", "a/b/../c.toml"] :
        StateM Files RunResult).run ownSettings).2.contentAt? ["a", "c.toml"] ≠
          some "# mine\n" :=
  ⟨by decide +kernel, by decide +kernel, by decide +kernel⟩

end Program

end PowerTables
