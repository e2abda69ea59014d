/-
Setting a key in a workspace.

The file of the configuration is written when the key can be set and is left alone when it cannot, whatever else is
touched on the way (`read?_afterSet_of_error`, `read?_afterSet_of_ok`). What a written file comes to is told in
`ConfigSet`, and two keys may be set in either order once the file could be loaded (`config_set_lawful`).
-/
import RepoTutor.Cli.Program
import RepoTutor.Proofs.Workspace.Config
import RepoTutor.Proofs.Workspace.Files

namespace RepoTutor.Cli

open Workspace

/-- what setting a key in the file comes to, with the text of the new file -/
def setKey (w : Layout) (key text : String) (t : FileTree) : Except ConfigError (Config × String) :=
  Config.set w.configFile (t.read? w.configFile) key text

/-- the files after a key was set or could not be -/
def afterSet (w : Layout) (key text : String) (t : FileTree) : FileTree := (Config.setIn w t key text).1

/-- the files that a subcommand leaves -/
def filesAfter : Attempt → FileTree
  | .ok (_, r) => r.files
  | .error (t, _) => t

/-- from `t` to `t'` a key was set, which came to the configuration `c` -/
structure ConfigSet (w : Layout) (key : String) (c : Config) (t t' : FileTree) : Prop where
  loaded : loadConfig w t' = .ok c
  members : ∃ old new, Config.readMembers w.configFile (t.read? w.configFile) = .ok old
    ∧ Config.readMembers w.configFile (t'.read? w.configFile) = .ok new
    ∧ ∀ k, new.contains k = true ↔ old.contains k = true ∨ k = key
  others : ∀ before, loadConfig w t = .ok before → ∀ k, k ≠ key → c.get? k = before.get? k

section Files

variable {w : Layout} {t : FileTree} {key text : String}

/-- the lock is another file than the configuration -/
theorem lock_ne (w : Layout) : plainPath w.lockFile ≠ plainPath w.configFile := by
  intro h
  have hsame : "config.lock" = "config.json" := plainPath_joinPath_inj (by decide) (by decide) h
  exact absurd hsame (by decide)

theorem read?_touch_lock (w : Layout) (t : FileTree) :
    (t.touch w.lockFile).read? w.configFile = t.read? w.configFile :=
  FileTree.read?_touch_of_ne (lock_ne w) t

theorem loadConfig_eq_ok {c : Config} :
    loadConfig w t = .ok c ↔ Config.load w.configFile (t.read? w.configFile) = .ok c :=
  Except.mapError_eq_ok

theorem setIn_of_ok {c : Config} {new : String} (h : setKey w key text t = .ok (c, new)) :
    Config.setIn w t key text = ((t.touch w.lockFile).write w.configFile new, .ok c) := by
  unfold setKey at h
  simp only [Config.setIn, read?_touch_lock, h]

theorem setIn_of_error {e : ConfigError} (h : setKey w key text t = .error e) :
    Config.setIn w t key text = (t.touch w.lockFile, .error e) := by
  unfold setKey at h
  simp only [Config.setIn, read?_touch_lock, h]

/-- setting a key in a workspace is setting it in the file -/
theorem setIn_answer (w : Layout) (t : FileTree) (key text : String) :
    (Config.setIn w t key text).2 = (setKey w key text t).map Prod.fst := by
  cases hset : setKey w key text t with
  | error e => rw [setIn_of_error hset]; rfl
  | ok r => rw [setIn_of_ok hset]; rfl

/-- the subcommand sets a key in a workspace that has been initialized, and does nothing elsewhere -/
theorem filesAfter_runConfigSet (w : Layout) (t : FileTree) (key text : String) :
    filesAfter (runConfigSet w key text t) = if t.isDirectory w.home then afterSet w key text t else t := by
  unfold runConfigSet afterSet
  cases hopen : t.isDirectory w.home with
  | false => rfl
  | true => cases hanswer : (Config.setIn w t key text).2 <;> simp [hanswer, orFail, filesAfter, Except.mapError, finish,
      bind, Except.bind, pure, Except.pure]

theorem read?_afterSet_of_ok {c : Config} {new : String} (h : setKey w key text t = .ok (c, new)) :
    (afterSet w key text t).read? w.configFile = some new := by
  rw [afterSet, setIn_of_ok h]
  exact FileTree.read?_write _ _ _

theorem read?_afterSet_of_error {e : ConfigError} (h : setKey w key text t = .error e) :
    (afterSet w key text t).read? w.configFile = t.read? w.configFile := by
  rw [afterSet, setIn_of_error h]
  exact read?_touch_lock w t

/-- the next key is set in the file that was written -/
theorem setKey_afterSet {c : Config} {new : String} (h : setKey w key text t = .ok (c, new)) (key' text' : String) :
    setKey w key' text' (afterSet w key text t) = Config.set w.configFile (some new) key' text' := by
  rw [setKey, read?_afterSet_of_ok h]

theorem configSet_of_ok {c : Config} {new : String} (h : setKey w key text t = .ok (c, new)) :
    ConfigSet w key c t (afterSet w key text t) := by
  have hread := read?_afterSet_of_ok h
  refine ⟨?_, ?_, fun before hbefore k hk => ?_⟩
  · rw [loadConfig_eq_ok, hread]
    exact Config.set_load h
  · rw [hread]
    exact Config.set_members h
  · exact Config.set_others h (loadConfig_eq_ok.1 hbefore) hk

end Files

/-- **Setting a key is atomic, local and independent of the order.** If it fails, the file of the configuration is as
before; if it comes to a configuration, that is what the new file is loaded as, with the old keys and this one in it, and
what could be loaded before keeps its other values. Where one key and then another were set, the other one can be set
first exactly when the file could be loaded, and then both are set with the same file in the end. All of this holds in
any directory, whether it has been initialized or not; the subcommand refuses to set a key where it has not. -/
theorem config_set_lawful (w : Layout) (t : FileTree) (key text : String) :
    (Config.setIn w t key text).2 = (setKey w key text t).map Prod.fst
      ∧ filesAfter (runConfigSet w key text t) = (if t.isDirectory w.home then afterSet w key text t else t)
      ∧ (∀ e, setKey w key text t = .error e →
        (afterSet w key text t).read? w.configFile = t.read? w.configFile)
      ∧ (∀ c new, setKey w key text t = .ok (c, new) → (afterSet w key text t).read? w.configFile = some new
          ∧ ConfigSet w key c t (afterSet w key text t))
      ∧ ∀ key' text', key ≠ key' → (∃ r, setKey w key text t = .ok r) →
          ∀ r, setKey w key' text' (afterSet w key text t) = .ok r →
            ((∃ r₁, setKey w key' text' t = .ok r₁) ↔ ∃ before, loadConfig w t = .ok before)
            ∧ ((∃ before, loadConfig w t = .ok before) → setKey w key text (afterSet w key' text' t) = .ok r
              ∧ (afterSet w key text (afterSet w key' text' t)).read? w.configFile
                = (afterSet w key' text' (afterSet w key text t)).read? w.configFile) := by
  refine ⟨setIn_answer w t key text, filesAfter_runConfigSet w t key text, fun e he => read?_afterSet_of_error he,
    fun c new h => ⟨read?_afterSet_of_ok h, configSet_of_ok h⟩, ?_⟩
  rintro key' text' hkeys ⟨⟨c, new⟩, h⟩ ⟨c', new'⟩ h'
  have hnext := h'
  rw [setKey_afterSet h] at hnext
  have hfirst : (∃ r₁, setKey w key' text' t = .ok r₁) ↔ ∃ before, loadConfig w t = .ok before := by
    simp only [loadConfig_eq_ok]
    exact Config.set_other_first hkeys h hnext
  refine ⟨hfirst, fun hload => ?_⟩
  obtain ⟨⟨c₁, new₁⟩, h₁⟩ := hfirst.2 hload
  have hlast : setKey w key text (afterSet w key' text' t) = .ok (c', new') := by
    rw [setKey_afterSet h₁]
    exact Config.set_comm hkeys h hnext h₁
  refine ⟨hlast, ?_⟩
  rw [read?_afterSet_of_ok hlast, read?_afterSet_of_ok h']

/-- a workspace without a configuration file -/
def freshWorkspace : FileTree := FileTree.empty.addDirectory "home/.gitdojo"

/-- the port and the address in either order, and a number of attempts that is refused -/
theorem port_and_bind_in_either_order :
    let w : Layout := ⟨"home"⟩
    freshWorkspace.isDirectory w.home = true
      ∧ (afterSet w "save_attempts" "0" freshWorkspace).read? w.configFile = freshWorkspace.read? w.configFile
      ∧ ConfigSet w "port" { port := 9000 } freshWorkspace (afterSet w "port" "9000" freshWorkspace)
      ∧ (afterSet w "port" "9000" (afterSet w "bind" "::" freshWorkspace)).read? w.configFile
        = (afterSet w "bind" "::" (afterSet w "port" "9000" freshWorkspace)).read? w.configFile := by
  intro w
  have hopen : freshWorkspace.isDirectory w.home = true := by decide +kernel
  have hattempts : setKey w "save_attempts" "0" freshWorkspace
      = .error (.cannotSet "save_attempts" "0" .noAttempts) := by decide +kernel
  have hport : setKey w "port" "9000" freshWorkspace
      = .ok ({ port := 9000 }, "\x7b\n  \"port\": 9000\n\x7d") := by decide +kernel
  have hbind : setKey w "bind" "::" (afterSet w "port" "9000" freshWorkspace)
      = .ok ({ port := 9000, bind := "::" }, "\x7b\n  \"bind\": \"::\",\n  \"port\": 9000\n\x7d") := by decide +kernel
  have hload : loadConfig w freshWorkspace = .ok {} := by decide +kernel
  obtain ⟨-, -, hunchanged, -, -⟩ := config_set_lawful w freshWorkspace "save_attempts" "0"
  obtain ⟨-, -, -, hset, horder⟩ := config_set_lawful w freshWorkspace "port" "9000"
  obtain ⟨-, hswap⟩ := horder "bind" "::" (by decide) ⟨_, hport⟩ _ hbind
  exact ⟨hopen, hunchanged _ hattempts, (hset _ _ hport).2, (hswap ⟨_, hload⟩).2⟩

end RepoTutor.Cli
