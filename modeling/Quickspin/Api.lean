import Quickspin.Runtime

/-! The wire protocol (`internal/api`): the request DTOs that carry a duration, with the JSON the client
writes and the server reads. Durations travel as whole seconds; zero is omitted and means the server's
default. -/
namespace Quickspin
set_option autoImplicit false

namespace Runtime

structure ExecOpts where
  env : Option StringMap
  workDir : String
  timeout : Duration

def DefaultExecTimeout : Duration := 30 * Duration.second

/-- The bound an exec runs under: a zero or negative timeout means the default. -/
def ExecOpts.execTimeout (opts : ExecOpts) : Duration :=
  if opts.timeout ≤ 0 then DefaultExecTimeout else opts.timeout

end Runtime

namespace Api

/-- Rounded up, so that a sub-second duration does not become zero. -/
def ceilSeconds (d : Duration) : Int64 :=
  if d ≤ 0 then 0 else (d + Duration.second - 1) / Duration.second

structure CreateSandboxRequest where
  spec : SpecFile
  ttlSeconds : Int64

def NewCreateSandboxRequest (spec : SpecFile) (ttl : Duration) : CreateSandboxRequest := ⟨spec, ceilSeconds ttl⟩

def CreateSandboxRequest.ttl (r : CreateSandboxRequest) : Duration := r.ttlSeconds * Duration.second

structure KeepaliveSandboxRequest where
  ttlSeconds : Int64

/-- A negative duration stays negative, for the server to reject it. -/
def NewKeepaliveSandboxRequest (ttl : Duration) : KeepaliveSandboxRequest :=
  ⟨if ttl < 0 then min (ttl / Duration.second) (-1) else ceilSeconds ttl⟩

def KeepaliveSandboxRequest.ttl (r : KeepaliveSandboxRequest) : Duration := r.ttlSeconds * Duration.second

structure ExecOptions where
  env : Option StringMap
  workDir : String
  timeoutSeconds : Int64

def NewExecOptions (opts : Runtime.ExecOpts) : ExecOptions := ⟨opts.env, opts.workDir, ceilSeconds opts.timeout⟩

def ExecOptions.execOpts (o : ExecOptions) : Runtime.ExecOpts :=
  ⟨o.env, o.workDir, o.timeoutSeconds * Duration.second⟩

/-! ## The bodies -/

/-- `omitempty` on a number. -/
def secondsField (name : String) (seconds : Int64) : List (String × Json) :=
  if seconds = 0 then [] else [(name, .num seconds.toInt)]

/-- The fields of an object none of which is unknown to the decoder; `null` leaves the zero value. -/
def knownFields (names : List String) : Json → Except Err (List (String × Json))
  | .null => .ok []
  | .obj fields =>
    if fields.all fun e => names.contains e.1 then .ok fields else .error (.foreign "json: unknown field")
  | _ => .error SpecFile.mistyped

def specFields : List String := ["image", "env", "cpus", "memory", "pids-limit", "allow-network"]

def CreateSandboxRequest.toJSON (r : CreateSandboxRequest) : Except Err Json := do
  let spec ← r.spec.toJSON
  return .obj (("spec", spec) :: secondsField "ttl_seconds" r.ttlSeconds)

def CreateSandboxRequest.ofJSON (j : Json) : Except Err CreateSandboxRequest := do
  let fields ← knownFields ["spec", "ttl_seconds"] j
  let _ ← knownFields specFields (SpecFile.field fields "spec")
  let spec ← SpecFile.ofJSON (SpecFile.field fields "spec")
  let seconds ← SpecFile.decodeInt64 (SpecFile.field fields "ttl_seconds")
  return ⟨spec, seconds.getD 0⟩

def KeepaliveSandboxRequest.toJSON (r : KeepaliveSandboxRequest) : Json :=
  .obj (secondsField "ttl_seconds" r.ttlSeconds)

def KeepaliveSandboxRequest.ofJSON (j : Json) : Except Err KeepaliveSandboxRequest := do
  let fields ← knownFields ["ttl_seconds"] j
  let seconds ← SpecFile.decodeInt64 (SpecFile.field fields "ttl_seconds")
  return ⟨seconds.getD 0⟩

/-- `omitempty` on a string and on a map. -/
def textField (name text : String) : List (String × Json) := if text = "" then [] else [(name, .str text)]

def mapField (name : String) : Option StringMap → List (String × Json)
  | some m => if m.entries.isEmpty then [] else [(name, .obj (m.entries.map fun e => (e.1, .str e.2)))]
  | none => []

def ExecOptions.toJSON (o : ExecOptions) : Json :=
  .obj (mapField "env" o.env ++ textField "work_dir" o.workDir ++ secondsField "timeout_seconds" o.timeoutSeconds)

def ExecOptions.ofJSON (j : Json) : Except Err ExecOptions := do
  let fields ← knownFields ["env", "work_dir", "timeout_seconds"] j
  let env ← SpecFile.decodeMap (SpecFile.field fields "env")
  let workDir ← SpecFile.decodeString (SpecFile.field fields "work_dir")
  let seconds ← SpecFile.decodeInt64 (SpecFile.field fields "timeout_seconds")
  return ⟨env, workDir.getD "", seconds.getD 0⟩

/-! ## What the client writes is what the server reads -/

theorem field_append_left {a b : List (String × Json)} {name : String} (h : ∀ e ∈ a, e.1 ≠ name) :
    SpecFile.field (a ++ b) name = SpecFile.field b name := by
  have hnone : a.filter (fun e => e.1 = name) = [] := List.filter_eq_nil_iff.mpr fun e he => by simpa using h e he
  rw [SpecFile.field, List.filter_append, hnone, List.nil_append, SpecFile.field]

theorem field_append_right {a b : List (String × Json)} {name : String} (h : ∀ e ∈ b, e.1 ≠ name) :
    SpecFile.field (a ++ b) name = SpecFile.field a name := by
  have hnone : b.filter (fun e => e.1 = name) = [] := List.filter_eq_nil_iff.mpr fun e he => by simpa using h e he
  rw [SpecFile.field, List.filter_append, hnone, List.append_nil, SpecFile.field]

theorem secondsField_name {name : String} {seconds : Int64} {e : String × Json}
    (h : e ∈ secondsField name seconds) : e.1 = name := by
  unfold secondsField at h
  split at h
  · cases h
  · rw [List.mem_singleton.mp h]

theorem textField_name {name text : String} {e : String × Json} (h : e ∈ textField name text) : e.1 = name := by
  unfold textField at h
  split at h
  · cases h
  · rw [List.mem_singleton.mp h]

theorem mapField_name {name : String} {map : Option StringMap} {e : String × Json} (h : e ∈ mapField name map) :
    e.1 = name := by
  unfold mapField at h
  split at h
  · split at h
    · cases h
    · rw [List.mem_singleton.mp h]
  · cases h

theorem decode_secondsField (name : String) (seconds : Int64) :
    ∃ o, SpecFile.decodeInt64 (SpecFile.field (secondsField name seconds) name) = .ok o ∧ o.getD 0 = seconds := by
  unfold secondsField
  split
  · next h => exact ⟨none, rfl, h.symm⟩
  · refine ⟨some seconds, ?_, rfl⟩
    have := SpecFile.decodeInt64_encode (some seconds)
    simpa [SpecFile.field] using this

/-- The document of a spec has the fields the decoder knows. -/
theorem knownFields_spec {s : SpecFile} {j : Json} (h : s.toJSON = .ok j) :
    ∃ fields, knownFields specFields j = .ok fields := by
  unfold SpecFile.toJSON at h
  split at h
  · cases h
  · obtain rfl := Except.ok.inj h
    simp [knownFields, specFields]

theorem CreateSandboxRequest.ofJSON_toJSON {r : CreateSandboxRequest} {j : Json} (h : r.toJSON = .ok j) :
    CreateSandboxRequest.ofJSON j = .ok r := by
  obtain ⟨spec, hspec, hj⟩ := bind_eq_ok.mp h
  obtain rfl := Except.ok.inj hj
  obtain ⟨fields, hfields⟩ := knownFields_spec hspec
  obtain ⟨o, ho, hseconds⟩ := decode_secondsField "ttl_seconds" r.ttlSeconds
  have hknown : knownFields ["spec", "ttl_seconds"]
      (.obj (("spec", spec) :: secondsField "ttl_seconds" r.ttlSeconds)) =
        .ok (("spec", spec) :: secondsField "ttl_seconds" r.ttlSeconds) := by
    refine if_pos ?_
    unfold secondsField
    split <;> simp
  have hspec' : SpecFile.field (("spec", spec) :: secondsField "ttl_seconds" r.ttlSeconds) "spec" = spec := by
    rw [← List.singleton_append, field_append_right fun e he => by simp [secondsField_name he]]
    rfl
  have httl : SpecFile.field (("spec", spec) :: secondsField "ttl_seconds" r.ttlSeconds) "ttl_seconds" =
      SpecFile.field (secondsField "ttl_seconds" r.ttlSeconds) "ttl_seconds" := by
    simp [SpecFile.field]
  unfold CreateSandboxRequest.ofJSON
  rw [hknown]
  refine bind_eq_ok.mpr ⟨_, rfl, ?_⟩
  rw [hspec', httl]
  exact bind_eq_ok.mpr ⟨fields, hfields, bind_eq_ok.mpr ⟨r.spec, SpecFile.ofJSON_toJSON hspec,
    bind_eq_ok.mpr ⟨o, ho, by rw [hseconds]; rfl⟩⟩⟩

theorem KeepaliveSandboxRequest.ofJSON_toJSON (r : KeepaliveSandboxRequest) :
    KeepaliveSandboxRequest.ofJSON r.toJSON = .ok r := by
  obtain ⟨o, ho, hseconds⟩ := decode_secondsField "ttl_seconds" r.ttlSeconds
  refine bind_eq_ok.mpr ⟨secondsField "ttl_seconds" r.ttlSeconds, ?_, bind_eq_ok.mpr ⟨o, ho, by rw [hseconds]; rfl⟩⟩
  refine if_pos ?_
  unfold secondsField
  split <;> simp

theorem decode_textField (name text : String) :
    ∃ o, SpecFile.decodeString (SpecFile.field (textField name text) name) = .ok o ∧ o.getD "" = text := by
  unfold textField
  split
  · next h => exact ⟨none, rfl, h.symm⟩
  · exact ⟨some text, by simp [SpecFile.field, SpecFile.decodeString], rfl⟩

/-- An empty map is left out, and read back as an absent one. -/
theorem decode_mapField (name : String) (map : Option StringMap) :
    ∃ map', SpecFile.decodeMap (SpecFile.field (mapField name map) name) = .ok map' ∧
      (map' = map ∨ map' = none ∧ map = some .empty) := by
  rcases map with _ | m
  · exact ⟨none, rfl, .inl rfl⟩
  · rcases hm : m.entries with _ | ⟨e, es⟩
    · refine ⟨none, by simp [mapField, hm, SpecFile.field, SpecFile.decodeMap], .inr ⟨rfl, ?_⟩⟩
      obtain ⟨entries, hs⟩ := m
      subst hm
      rfl
    · refine ⟨some m, ?_, .inl rfl⟩
      have := SpecFile.decodeMap_encode (some m)
      simpa [mapField, hm, SpecFile.field] using this

/-- The options read back, but for an empty environment, which is read back as an absent one. -/
theorem ExecOptions.ofJSON_toJSON (o : ExecOptions) : ∃ env, ExecOptions.ofJSON o.toJSON = .ok { o with env } ∧
    (env = o.env ∨ env = none ∧ o.env = some .empty) := by
  obtain ⟨secs, hsecs, hseconds⟩ := decode_secondsField "timeout_seconds" o.timeoutSeconds
  obtain ⟨dir, hdir, hworkDir⟩ := decode_textField "work_dir" o.workDir
  obtain ⟨env, henv, hsame⟩ := decode_mapField "env" o.env
  have hknown : ∀ e ∈ mapField "env" o.env ++ textField "work_dir" o.workDir ++
      secondsField "timeout_seconds" o.timeoutSeconds, e.1 = "env" ∨ e.1 = "work_dir" ∨ e.1 = "timeout_seconds" := by
    intro e he
    rcases List.mem_append.mp he with he | he
    · rcases List.mem_append.mp he with he | he
      · exact .inl (mapField_name he)
      · exact .inr (.inl (textField_name he))
    · exact .inr (.inr (secondsField_name he))
  refine ⟨env, bind_eq_ok.mpr ⟨_, if_pos ?_, bind_eq_ok.mpr ⟨env, ?_, bind_eq_ok.mpr ⟨dir, ?_,
    bind_eq_ok.mpr ⟨secs, ?_, by rw [hworkDir, hseconds]; rfl⟩⟩⟩⟩, hsame⟩
  · rw [List.all_eq_true]
    intro e he
    rcases hknown e he with h | h | h <;> simp [h]
  · rw [field_append_right, field_append_right, henv] <;> intro e he
    · simp [textField_name he]
    · simp [secondsField_name he]
  · rw [field_append_right, field_append_left, hdir] <;> intro e he
    · simp [mapField_name he]
    · simp [secondsField_name he]
  · rw [field_append_left, hsecs]
    intro e he
    rcases List.mem_append.mp he with he | he
    · simp [mapField_name he]
    · simp [textField_name he]

end Api
end Quickspin
