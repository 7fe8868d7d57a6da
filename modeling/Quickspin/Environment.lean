import Mathlib.Data.List.TakeWhile
import Quickspin.Archive
import Quickspin.Docker

/-! The environment of a sandbox from the command line to the daemon: `quickspin sandbox create` overlays its
`--env` flags on the map of the spec file (`internal/cli`), and the daemon is given one `KEY=VALUE` string for
each variable, which a process cuts at its first separator. -/
namespace Quickspin
set_option autoImplicit false

/-! ## Cutting at the separator -/

/-- `strings.Cut(value, "=")`, where the separator is found. -/
def cutEquals (value : String) : Option (String × String) :=
  match value.toList.dropWhile (· ≠ '=') with
  | [] => none
  | _ :: rest => some (String.ofList (value.toList.takeWhile (· ≠ '=')), String.ofList rest)

theorem cutEquals_join {k : String} (h : '=' ∉ k.toList) (v : String) : cutEquals (k ++ "=" ++ v) = some (k, v) := by
  have hchars : (k ++ "=" ++ v).toList = k.toList ++ '=' :: v.toList := by simp
  have hkey : ∀ c ∈ k.toList, decide (c ≠ '=') = true := by
    intro c hc
    exact decide_eq_true fun heq => h (heq ▸ hc)
  have hdrop : (k.toList ++ '=' :: v.toList).dropWhile (· ≠ '=') = '=' :: v.toList := by
    rw [List.dropWhile_append_of_pos hkey]
    simp
  have htake : (k.toList ++ '=' :: v.toList).takeWhile (· ≠ '=') = k.toList := by
    rw [List.takeWhile_append_of_pos hkey]
    simp
  rw [cutEquals, hchars, hdrop, htake]
  simp

/-- What stands before the first separator is free of it. -/
theorem cutEquals_key {value : String} {e : String × String} (h : cutEquals value = some e) : '=' ∉ e.1.toList := by
  unfold cutEquals at h
  split at h
  · cases h
  · obtain rfl := Option.some.inj h
    intro hmem
    rw [String.toList_ofList] at hmem
    simpa using List.mem_takeWhile_imp hmem

/-! ## The command line -/

namespace Cli

/-- The flags that fill a spec; the lifetime is not part of it. -/
structure CreateFlags where
  env : List String
  cpus : Float64
  memory : String
  pidsLimit : Int64
  allowNetwork : Bool

/-- One step of the loop of `parseEnvironment`. -/
def parseVariable (env : StringMap) (value : String) : Except Err StringMap :=
  match cutEquals value with
  | none => .error (.foreign s!"invalid environment variable {value.quote}: expected KEY=VALUE")
  | some (key, val) =>
    if key = "" then .error (.foreign s!"invalid environment variable {value.quote}: expected KEY=VALUE")
    else .ok (env.insert key val)

def parseEnvironment (values : List String) : Except Err (Option StringMap) :=
  if values.length = 0 then .ok none
  else do
    let env ← values.foldlM parseVariable StringMap.empty
    return some env

/-- Overlay the `--env` variables onto the file's, key by key; absent when neither names anything. -/
def resolveEnvironment (fromFile : Option StringMap) (flagValues : List String) : Except Err (Option StringMap) := do
  let fromFlags ← parseEnvironment flagValues
  let file := fromFile.getD StringMap.empty
  let flags := fromFlags.getD StringMap.empty
  if file.entries.length = 0 ∧ flags.entries.length = 0 then .ok none
  else .ok (some ((StringMap.empty.copy file).copy flags))

def resolveCreateSpec (args : List String) (file : SpecFile) (flags : CreateFlags) (flagSet : String → Bool) :
    Except Err SpecFile := do
  let file : SpecFile := match args with
    | [] => file
    | arg :: _ => if arg ≠ "" then { file with image := some arg } else file
  let environment ← resolveEnvironment file.env flags.env
  let file := { file with env := environment }
  let file := if flagSet "cpus" then { file with cpus := some flags.cpus } else file
  let file := if flagSet "memory" then { file with memory := some flags.memory } else file
  let file := if flagSet "pids-limit" then { file with pidsLimit := some flags.pidsLimit } else file
  let file := if flagSet "allow-network" then { file with allowNetwork := some flags.allowNetwork } else file
  match file.resolveValidated with
  | .error err => .error (errorf "invalid limits" err)
  | .ok _ => .ok file

/-! ## The overlay -/

/-- The value of the last flag that sets the key. -/
def setBy (flagValues : List String) (k : String) : Option String :=
  ((flagValues.filterMap cutEquals).reverse.find? fun e => e.1 = k).map (·.2)

/-- What the command line asks for: the last flag that sets the key, otherwise the file. -/
def overlay (fromFile : Option StringMap) (flagValues : List String) (k : String) : Option String :=
  (setBy flagValues k).or (fromFile.bind fun m => m.lookup k)

theorem parseVariable_ok {env env' : StringMap} {value : String} (h : parseVariable env value = .ok env') :
    ∃ e, cutEquals value = some e ∧ e.1 ≠ "" ∧ env' = env.insert e.1 e.2 := by
  unfold parseVariable at h
  cases hcut : cutEquals value with
  | none => simp [hcut] at h
  | some e =>
    simp only [hcut] at h
    by_cases hkey : e.1 = ""
    · rw [if_pos hkey] at h
      cases h
    · rw [if_neg hkey] at h
      exact ⟨e, rfl, hkey, (Except.ok.inj h).symm⟩

/-- The loop puts the flags' variables one after another, each under a key that is not empty. -/
theorem parseVariables_ok {values : List String} {acc env : StringMap} (h : values.foldlM parseVariable acc = .ok env) :
    env = (values.filterMap cutEquals).foldl (fun m e => m.insert e.1 e.2) acc ∧
      ∀ e ∈ values.filterMap cutEquals, e.1 ≠ "" := by
  induction values generalizing acc with
  | nil =>
    cases h
    exact ⟨rfl, by simp⟩
  | cons value rest ih =>
    rw [List.foldlM_cons] at h
    obtain ⟨next, hnext, h⟩ := bind_eq_ok.mp h
    obtain ⟨e, hcut, hkey, rfl⟩ := parseVariable_ok hnext
    have hrest := ih h
    rw [List.filterMap_cons_some hcut, List.foldl_cons]
    refine ⟨hrest.1, ?_⟩
    intro e' he'
    cases List.mem_cons.mp he' with
    | inl heq => exact heq ▸ hkey
    | inr he' => exact hrest.2 e' he'

theorem parseEnvironment_ok {values : List String} {env : Option StringMap} (h : parseEnvironment values = .ok env)
    (k : String) : (env.getD StringMap.empty).lookup k = setBy values k := by
  unfold parseEnvironment at h
  by_cases hnil : values.length = 0
  · rw [if_pos hnil] at h
    cases h
    rw [List.length_eq_zero_iff.mp hnil]
    rfl
  · rw [if_neg hnil] at h
    obtain ⟨m, hm, h⟩ := bind_eq_ok.mp h
    cases h
    rw [Option.getD_some, (parseVariables_ok hm).1, StringMap.lookup_foldl, StringMap.lookup_empty, Option.or_none]
    rfl

theorem resolveEnvironment_ok {fromFile env : Option StringMap} {flagValues : List String}
    (h : resolveEnvironment fromFile flagValues = .ok env) (k : String) :
    (env.getD StringMap.empty).lookup k = overlay fromFile flagValues k := by
  obtain ⟨fromFlags, hflags, h⟩ := bind_eq_ok.mp h
  have hset := parseEnvironment_ok hflags k
  have hfile : (fromFile.getD StringMap.empty).lookup k = fromFile.bind fun m => m.lookup k := by
    cases fromFile <;> rfl
  simp only at h
  by_cases hempty : (fromFile.getD StringMap.empty).entries.length = 0 ∧ (fromFlags.getD StringMap.empty).entries.length = 0
  · rw [if_pos hempty] at h
    cases h
    have hnone : ∀ m : StringMap, m.entries.length = 0 → m.lookup k = none := by
      intro m hm
      rw [StringMap.lookup, List.length_eq_zero_iff.mp hm]
      rfl
    rw [overlay, ← hset, ← hfile, hnone _ hempty.1, hnone _ hempty.2]
    rfl
  · rw [if_neg hempty] at h
    cases h
    rw [Option.getD_some, StringMap.lookup_copy, StringMap.lookup_copy, StringMap.lookup_empty, Option.or_none, hset, hfile]
    rfl

theorem env_of_resolveValidated {s : SpecFile} {r : Runtime.Spec} (h : s.resolveValidated = .ok r) : r.env = s.env := by
  have hresolve : s.resolve = .ok r := by
    unfold SpecFile.resolveValidated at h
    cases hs : s.resolve with
    | error err => simp [hs] at h
    | ok resolved =>
      simp only [hs] at h
      cases hv : resolved.validate with
      | error err => simp [hv] at h
      | ok _ =>
        simp only [hv] at h
        rw [Except.ok.inj h]
  unfold SpecFile.resolve at hresolve
  split at hresolve
  · cases hresolve
  · obtain rfl := Except.ok.inj hresolve
    rfl

theorem resolveCreateSpec_ok {args : List String} {file spec : SpecFile} {flags : CreateFlags} {flagSet : String → Bool}
    (h : resolveCreateSpec args file flags flagSet = .ok spec) :
    resolveEnvironment file.env flags.env = .ok spec.env ∧ ∃ r, spec.resolveValidated = .ok r ∧ r.env = spec.env := by
  obtain ⟨environment, henv, h⟩ := bind_eq_ok.mp h
  have himage : (match args with
      | [] => file
      | arg :: _ => if arg ≠ "" then { file with image := some arg } else file).env = file.env := by
    cases args with
    | nil => rfl
    | cons arg rest => simp only [apply_ite SpecFile.env, ite_self]
  rw [himage] at henv
  simp only at h
  generalize hfinal : (if flagSet "allow-network" then _ else _ : SpecFile) = final at h
  have hkept : final.env = environment := by
    rw [← hfinal]
    simp only [apply_ite SpecFile.env, ite_self]
  cases hr : final.resolveValidated with
  | error err =>
    rw [hr] at h
    cases h
  | ok r =>
    rw [hr] at h
    obtain rfl := Except.ok.inj h
    exact ⟨hkept ▸ henv, r, hr, env_of_resolveValidated hr⟩

/-! ## Reading it back -/

/-- Cut at its first separator, each argument gives one variable of the overlay, in increasing order of nonempty
keys. -/
def ReadsBack (args : List String) (fromFile : Option StringMap) (flagValues : List String) : Prop :=
  ∃ entries : List (String × String), args.map cutEquals = entries.map some ∧
    entries.Pairwise (fun a b => a.1 < b.1) ∧ (∀ e ∈ entries, e.1 ≠ "") ∧
    ∀ k v, (k, v) ∈ entries ↔ overlay fromFile flagValues k = some v

/-- What `parseEnvironment` asks of the key of a flag. -/
def PlainKey (k : String) : Prop := k ≠ "" ∧ '=' ∉ k.toList

/-- The keys of the file's map are not checked. -/
def PlainKeys (fromFile : Option StringMap) : Prop := ∀ m, fromFile = some m → ∀ e ∈ m.entries, PlainKey e.1

theorem plainKey_of_setBy {values : List String} {env : Option StringMap} (h : parseEnvironment values = .ok env)
    {k v : String} (hk : setBy values k = some v) : PlainKey k := by
  obtain ⟨e, he, _⟩ := Option.map_eq_some_iff.mp hk
  have hek : e.1 = k := by simpa using List.find?_some he
  have hmem := List.mem_reverse.mp (List.mem_of_find?_eq_some he)
  obtain ⟨value, _, hcut⟩ := List.mem_filterMap.mp hmem
  rw [← hek]
  refine ⟨?_, cutEquals_key hcut⟩
  unfold parseEnvironment at h
  by_cases hnil : values.length = 0
  · rw [List.length_eq_zero_iff.mp hnil] at hmem
    cases hmem
  · rw [if_neg hnil] at h
    obtain ⟨m, hm, _⟩ := bind_eq_ok.mp h
    exact (parseVariables_ok hm).2 e hmem

theorem envToArgs_eq (env : Option StringMap) :
    Docker.envToArgs env = (env.getD StringMap.empty).entries.map fun e => e.1 ++ "=" ++ e.2 := by
  cases env <;> rfl

theorem readsBack_of_plainKeys {fromFile env : Option StringMap} {flagValues : List String}
    (h : resolveEnvironment fromFile flagValues = .ok env) (hplain : PlainKeys fromFile) :
    ReadsBack (Docker.envToArgs env) fromFile flagValues := by
  have hmem : ∀ k v, (k, v) ∈ (env.getD StringMap.empty).entries ↔ overlay fromFile flagValues k = some v := by
    intro k v
    rw [← resolveEnvironment_ok h, StringMap.lookup_eq_some_iff]
  have hkeys : ∀ e ∈ (env.getD StringMap.empty).entries, PlainKey e.1 := by
    intro e he
    have hoverlay := (hmem e.1 e.2).mp he
    obtain ⟨fromFlags, hflags, _⟩ := bind_eq_ok.mp h
    rw [overlay, Option.or_eq_some_iff] at hoverlay
    cases hoverlay with
    | inl hset => exact plainKey_of_setBy hflags hset
    | inr hfile =>
      obtain ⟨m, hm, hlookup⟩ := Option.bind_eq_some_iff.mp hfile.2
      exact hplain m hm _ (StringMap.lookup_eq_some_iff.mp hlookup)
  refine ⟨(env.getD StringMap.empty).entries, ?_, (env.getD StringMap.empty).sorted, fun e he => (hkeys e he).1, hmem⟩
  rw [envToArgs_eq, List.map_map]
  apply List.map_congr_left
  intro e he
  exact cutEquals_join (hkeys e he).2 e.2

theorem plainKeys_of_readsBack {args : List String} {fromFile : Option StringMap} {flagValues : List String}
    (h : ReadsBack args fromFile flagValues) : PlainKeys fromFile := by
  obtain ⟨entries, hcut, _, hne, hmem⟩ := h
  intro m hm e he
  have hfile : fromFile.bind (fun m => m.lookup e.1) = some e.2 := by
    rw [hm]
    exact StringMap.lookup_eq_some_iff.mpr he
  -- a flag may have replaced the file's value, never the key
  obtain ⟨v, hv⟩ : ∃ v, overlay fromFile flagValues e.1 = some v := by
    rw [overlay, hfile]
    cases setBy flagValues e.1 with
    | none => exact ⟨e.2, rfl⟩
    | some v => exact ⟨v, rfl⟩
  have hentry := (hmem e.1 v).mpr hv
  have hread : some (e.1, v) ∈ args.map cutEquals := by
    rw [hcut]
    exact List.mem_map_of_mem hentry
  obtain ⟨arg, _, harg⟩ := List.mem_map.mp hread
  exact ⟨hne (e.1, v) hentry, cutEquals_key (e := (e.1, v)) harg⟩

/-- **The environment end to end**: the daemon's strings read back as the overlay of the flags on the file exactly
when the file's own keys would have been accepted as flags. -/
theorem environment_end_to_end (args : List String) (file spec : SpecFile) (flags : CreateFlags)
    (flagSet : String → Bool) (h : resolveCreateSpec args file flags flagSet = .ok spec) :
    ∃ r, spec.resolveValidated = .ok r ∧
      (ReadsBack (Docker.envToArgs r.env) file.env flags.env ↔ PlainKeys file.env) := by
  obtain ⟨henv, r, hr, hkept⟩ := resolveCreateSpec_ok h
  refine ⟨r, hr, ?_⟩
  rw [hkept]
  exact ⟨plainKeys_of_readsBack, readsBack_of_plainKeys henv⟩

/-- A file that sets `A=B`. -/
def separatorInKey : SpecFile := { env := some ⟨[("A=B", "c")], List.pairwise_singleton ..⟩ }

def noFlags : CreateFlags := ⟨[], DefaultCPUs, DefaultMemory, DefaultPidsLimit, false⟩

theorem environment_separator_in_key : ∃ spec, resolveCreateSpec [] separatorInKey noFlags (fun _ => false) = .ok spec ∧
    ∃ r, spec.resolveValidated = .ok r ∧ ¬ ReadsBack (Docker.envToArgs r.env) separatorInKey.env noFlags.env := by
  obtain ⟨spec, hspec⟩ := exists_ok_of_isOk
    (show (resolveCreateSpec [] separatorInKey noFlags (fun _ => false)).isOk = true by decide +kernel)
  obtain ⟨_, r, hr, _⟩ := resolveCreateSpec_ok hspec
  refine ⟨spec, hspec, r, hr, ?_⟩
  intro h
  have hplain := plainKeys_of_readsBack h _ rfl ("A=B", "c") (by simp)
  exact hplain.2 (by decide)

def plainFile : SpecFile := { env := some ⟨[("GREETING", "hello")], List.pairwise_singleton ..⟩ }

def greetingFlag : CreateFlags := { noFlags with env := ["GREETING=a=b"] }

theorem environment_end_to_end_plain : ∃ (spec : SpecFile) (r : Runtime.Spec), spec.resolveValidated = .ok r ∧
    (ReadsBack (Docker.envToArgs r.env) plainFile.env greetingFlag.env ↔ PlainKeys plainFile.env) ∧
    PlainKeys plainFile.env := by
  obtain ⟨spec, hspec⟩ := exists_ok_of_isOk
    (show (resolveCreateSpec [] plainFile greetingFlag (fun _ => false)).isOk = true by decide +kernel)
  obtain ⟨r, hr, hiff⟩ := environment_end_to_end [] plainFile spec greetingFlag (fun _ => false) hspec
  refine ⟨spec, r, hr, hiff, ?_⟩
  intro m hm e he
  cases hm
  obtain rfl := List.mem_singleton.mp he
  exact ⟨by decide, by decide⟩

end Cli
end Quickspin
