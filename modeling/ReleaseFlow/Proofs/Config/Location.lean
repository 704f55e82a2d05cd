import ReleaseFlow.Config.Location
import ReleaseFlow.Http.Exchange
import ReleaseFlow.Proofs.Flow.Run

/-!
# The file that decides

The settings come from one file, in whatever state it is. What is looked for later does not matter.

* `FileTree.lookAt`: what lies at a path;
* `Config.settingsAt`: what the file at a path comes to;
* `Config.Decides`: the file that decides;
* `run_load_of_decides`, `run_load_of_nothing`: what is loaded;
* `load_congr`: what does not matter;
* `one_file_decides`: **the settings are those of one file, or its fault**.
-/

namespace ReleaseFlow

namespace FileTree

variable {t t' : FileTree} {path : String}

/-- What lies at a path, or why nothing does. -/
def lookAt (t : FileTree) (path : String) : Except FileFault Node :=
  match t.resolve path with
  | .error fault => .error fault
  | .ok place =>
    match t.node? place with
    | none => .error .notFound
    | some node => .ok node

theorem occupied_iff : t.occupied path = true ↔ ∃ node, t.lookAt path = .ok node := by
  unfold occupied lookAt
  cases t.resolve path with
  | error fault => simp
  | ok place =>
    dsimp only
    cases t.node? place with
    | none => simp
    | some node => simp

theorem occupied_congr (h : t.lookAt path = t'.lookAt path) :
    t.occupied path = t'.occupied path := by
  rw [Bool.eq_iff_iff, occupied_iff, occupied_iff, h]

end FileTree

namespace Config

/-! ## One file -/

/-- What the file at a path comes to: its settings, or the fault of the file or of its text. -/
def settingsAt (files : FileTree) (path : String) : Except Failure Config :=
  match files.lookAt path with
  | .error fault => .error (.io fault.message)
  | .ok .directory => .error (.io FileFault.isDirectory.message)
  | .ok (.file (.binary _)) => .error (.io FileFault.notText.message)
  | .ok (.file (.text text)) => parse text

section Runs

variable {S : Service} {σ : Type} {host : Host S σ} {s : σ} {w w' : World}
  {directory directory' path : Option String} {p q : String}

theorem run_loadFile (p : String) :
    (loadFile p).run host s w = (.ofExcept (settingsAt w.files p), s, w) := by
  change ((Flow.ofFile (w.files.readText p)).bind fun text =>
    Flow.ofExcept (parse text)).run host s w = _
  unfold FileTree.readText settingsAt FileTree.lookAt
  cases w.files.resolve p with
  | error fault => rfl
  | ok place =>
    dsimp only
    cases w.files.node? place with
    | none => rfl
    | some node =>
      cases node with
      | directory => rfl
      | file content =>
        cases content with
        | binary bytes => rfl
        | text text =>
          change (Flow.ofExcept (parse text)).run host s w = (.ofExcept (parse text), s, w)
          cases parse text <;> rfl

/-! ## The file that decides -/

/-- The file in the user's directory of settings. -/
def userFile (directory : String) : String :=
  directory ++ "/" ++ fileName

/-- The file at `p` decides: the one that the user names, or else the one in the working directory
if anything lies there, or else the one in the user's directory if anything lies there. -/
inductive Decides (files : FileTree) (directory : Option String) : Option String → String → Prop
  | named (p : String) : Decides files directory (some p) p
  | near (h : files.occupied fileName = true) : Decides files directory none fileName
  | far (d : String) (hd : directory = some d) (hnear : files.occupied fileName = false)
      (h : files.occupied (userFile d) = true) : Decides files directory none (userFile d)

theorem run_load_none : (load directory none).run host s w =
    if w.files.occupied fileName = true then (.ofExcept (settingsAt w.files fileName), s, w)
    else
      match directory with
      | none => (.done {}, s, w)
      | some d =>
        if w.files.occupied (userFile d) = true then
          (.ofExcept (settingsAt w.files (userFile d)), s, w)
        else (.done {}, s, w) := by
  unfold load
  change ((if w.files.occupied fileName = true then loadFile fileName else _) : Flow S Config).run
    host s w = _
  split
  · exact run_loadFile fileName
  cases directory with
  | none => rfl
  | some d =>
    change ((if w.files.occupied (userFile d) = true then loadFile (userFile d) else _) :
      Flow S Config).run host s w = _
    dsimp only
    split
    · exact run_loadFile (userFile d)
    · rfl

theorem run_load_of_decides (h : Decides w.files directory path p) :
    (load directory path).run host s w = (.ofExcept (settingsAt w.files p), s, w) := by
  cases h with
  | named p => exact run_loadFile p
  | near h => rw [run_load_none, if_pos h]
  | far d hd hnear h =>
    subst hd
    rw [run_load_none, if_neg (by simp [hnear])]
    exact if_pos h

theorem decides_unique (hp : Decides w.files directory path p)
    (hq : Decides w.files directory path q) : p = q := by
  cases hp with
  | named p =>
    cases hq
    rfl
  | near h =>
    cases hq with
    | near _ => rfl
    | far d _ hnear _ => rw [h] at hnear; cases hnear
  | far d hd hnear _ =>
    cases hq with
    | near h => rw [h] at hnear; cases hnear
    | far d' hd' _ _ => rw [Option.some.inj (hd.symm.trans hd')]

theorem nothing_decides_iff : (¬ ∃ p, Decides w.files directory path p) ↔
    path = none ∧ w.files.occupied fileName = false ∧
      ∀ d, directory = some d → w.files.occupied (userFile d) = false := by
  constructor
  · intro h
    have hpath : path = none := by
      cases path with
      | none => rfl
      | some p => exact absurd ⟨p, .named p⟩ h
    subst hpath
    have hnear : w.files.occupied fileName = false := by
      rw [← Bool.not_eq_true]
      exact fun hnear => h ⟨_, .near hnear⟩
    refine ⟨rfl, hnear, fun d hd => ?_⟩
    rw [← Bool.not_eq_true]
    exact fun hfar => h ⟨_, .far d hd hnear hfar⟩
  · rintro ⟨rfl, hnear, hfar⟩ ⟨p, hp⟩
    cases hp with
    | near h => rw [h] at hnear; cases hnear
    | far d hd _ h => rw [hfar d hd] at h; cases h

theorem run_load_of_nothing (h : ¬ ∃ p, Decides w.files directory path p) :
    (load directory path).run host s w = (.done {}, s, w) := by
  obtain ⟨rfl, hnear, hfar⟩ := nothing_decides_iff.1 h
  rw [run_load_none, if_neg (by simp [hnear])]
  cases directory with
  | none => rfl
  | some d => exact if_neg (by simp [hfar d rfl])

/-! ## What does not matter -/

theorem settingsAt_congr {files files' : FileTree} (h : files.lookAt p = files'.lookAt p) :
    settingsAt files p = settingsAt files' p := by
  rw [settingsAt, settingsAt, h]

/-- Beside the file that decides and those before it, nothing matters. -/
theorem load_congr (hp : Decides w.files directory path p)
    (hp' : Decides w'.files directory' path p) (h : w.files.lookAt p = w'.files.lookAt p) :
    ((load directory path).run host s w).1 = ((load directory' path).run host s w').1 := by
  rw [run_load_of_decides hp, run_load_of_decides hp', settingsAt_congr h]

/-- **One file decides.** The settings are those of the file that the user names, there or not; or
else of the file in the working directory, if anything lies there; or else of the file in the user's
directory, if anything lies there. A file that cannot be read, or whose text has no settings, is a
failure. The default settings are those of no file at all, or what the file that decides comes to.
What lies where a file would be looked for later does not matter. -/
theorem one_file_decides {S : Service} {σ : Type} (host : Host S σ) (s : σ) (w : World)
    (directory path : Option String) :
    (∀ p q, Decides w.files directory path p → Decides w.files directory path q → p = q) ∧
    (∀ p, Decides w.files directory path p →
      (load directory path).run host s w = (.ofExcept (settingsAt w.files p), s, w)) ∧
    ((¬ ∃ p, Decides w.files directory path p) ↔
      path = none ∧ w.files.occupied fileName = false ∧
        ∀ d, directory = some d → w.files.occupied (userFile d) = false) ∧
    ((¬ ∃ p, Decides w.files directory path p) →
      (load directory path).run host s w = (.done {}, s, w)) ∧
    (((load directory path).run host s w).1 = .done {} →
      (¬ ∃ p, Decides w.files directory path p) ∨
        ∃ p, Decides w.files directory path p ∧ settingsAt w.files p = .ok {}) ∧
    (∀ p w' directory', path = some p → w.files.lookAt p = w'.files.lookAt p →
      ((load directory path).run host s w).1 = ((load directory' path).run host s w').1) ∧
    ∀ w' directory', path = none → w.files.occupied fileName = true →
      w.files.lookAt fileName = w'.files.lookAt fileName →
      ((load directory path).run host s w).1 = ((load directory' path).run host s w').1 := by
  refine ⟨fun p q => decides_unique, fun p => run_load_of_decides, nothing_decides_iff,
    run_load_of_nothing, fun hdefault => ?_, ?_, ?_⟩
  · by_cases h : ∃ p, Decides w.files directory path p
    · obtain ⟨p, hp⟩ := h
      refine Or.inr ⟨p, hp, ?_⟩
      rw [run_load_of_decides hp] at hdefault
      cases hsettings : settingsAt w.files p with
      | error e => rw [hsettings] at hdefault; cases hdefault
      | ok config => rw [hsettings] at hdefault; exact congrArg _ (Outcome.done.inj hdefault)
    · exact Or.inl h
  · rintro p w' directory' rfl hlook
    exact load_congr (.named p) (.named p) hlook
  · rintro w' directory' rfl hnear hlook
    have hnear' : w'.files.occupied fileName = true := by
      rwa [← FileTree.occupied_congr hlook]
    exact load_congr (.near hnear) (.near hnear') hlook

end Runs

/-- A directory in the place of the file is a failure, whether the user's own file has settings or
is not there, and so is a file that is named and not there. -/
theorem one_file_decides_directory :
    let near : List (Place × Node) :=
      [(["cwd"], .directory), (["cwd", "release-tagger.toml"], .directory)]
    let far : List (Place × Node) := [(["xdg"], .directory),
      (["xdg", "release-tagger.toml"], .file (.text "[release]\nbranch = \"main\"\n"))]
    let w : World := { files := ⟨near ++ far, ["cwd"]⟩ }
    let host : Host Http.service Unit := fun _ s => (.error (.http "no connection"), s)
    (load (some "/xdg") none).run host () w =
      (.failed (.io "Is a directory (os error 21)"), (), w) ∧
    ((load none none).run host () { files := ⟨near, ["cwd"]⟩ }).1 =
      .failed (.io "Is a directory (os error 21)") ∧
    (load (some "/xdg") (some "other.toml")).run host () w =
      (.failed (.io "No such file or directory (os error 2)"), (), w) := by
  intro near far w host
  obtain ⟨-, hrun, -, -, -, -, hrest⟩ := one_file_decides host () w (some "/xdg") none
  have hnear : (load (some "/xdg") none).run host () w =
    (.failed (.io "Is a directory (os error 21)"), (), w) := hrun _ (.near (by decide))
  have hsame := hrest { files := ⟨near, ["cwd"]⟩ } none rfl (by decide) rfl
  exact ⟨hnear, hsame.symm.trans (congrArg Prod.fst hnear),
    (one_file_decides host () w (some "/xdg") (some "other.toml")).2.1 _ (.named _)⟩

end Config

end ReleaseFlow
