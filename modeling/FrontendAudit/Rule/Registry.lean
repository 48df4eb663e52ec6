/-!
# Registries of detectors

A detector looks at one line of a source at a time. Detectors are registered under distinct names
and run over all lines, line by line and within a line in the order in which they were registered.
The sources `γ` and the results `α` are arbitrary.

What a detector reports is a function of what it looks at. Where calls of detectors do more than
report, say keep a log or fail, a run makes them one by one (`Registry.runWith`). A registry in use
is asked to register detectors and to run them, in any order (`Registry.perform`).
-/

namespace FrontendAudit.Rule

/-- What a detector reports about a line, given its text, its index and the whole source. -/
abbrev Detector (γ α : Type) := List Char → Nat → γ → List α

/-- A call of a detector, to look at the line of an index. -/
structure Call (γ α : Type) where
  name : String
  detector : Detector γ α
  line : List Char
  index : Nat

/-- What the detector that is called reports. -/
def Call.reports (call : Call γ α) (source : γ) : List α :=
  call.detector call.line call.index source

/-- Detectors under distinct names, in order of registration. -/
structure Registry (γ α : Type) where
  entries : List (String × Detector γ α)
  nodup : (entries.map (·.1)).Nodup

namespace Registry

/-- The registry without detectors. -/
def empty : Registry γ α := ⟨[], by simp⟩

/-- The names, in order of registration. -/
def names (r : Registry γ α) : List String := r.entries.map (·.1)

/-- The number of detectors. -/
def size (r : Registry γ α) : Nat := r.entries.length

/-- Adds a detector at the end, unless its name is taken. -/
def register? (r : Registry γ α) (name : String) (detector : Detector γ α) :
    Option (Registry γ α) :=
  if h : name ∈ r.names then none
  else some
    { entries := r.entries ++ [(name, detector)]
      nodup := by
        rw [List.map_append, List.nodup_append]
        refine ⟨r.nodup, by simp, ?_⟩
        intro a ha b hb
        simp only [List.map_cons, List.map_nil, List.mem_singleton] at hb
        rintro rfl
        exact h (hb ▸ ha) }

/-- The detector of a name. -/
def find? (r : Registry γ α) (name : String) : Option (Detector γ α) :=
  (r.entries.find? (·.1 = name)).map (·.2)

/-- What the detectors report about one line. -/
def runLine (r : Registry γ α) (source : γ) (line : List Char) (index : Nat) : List α :=
  r.entries.flatMap fun entry => entry.2 line index source

/-- What the detectors report about all lines. -/
def run (r : Registry γ α) (source : γ) (lines : List (List Char)) : List α :=
  lines.zipIdx.flatMap fun (line, index) => r.runLine source line index

/-- Has each detector called on each line and puts together what the calls return, where `make`
makes a call. It may do more than ask the detector, and may fail. -/
def runWith {m : Type → Type} [Monad m] (r : Registry γ α) (make : Call γ α → m (List β))
    (lines : List (List Char)) : m (List β) :=
  lines.zipIdx.foldlM (fun found (line, index) =>
    r.entries.foldlM (fun found (name, detector) =>
      (found ++ ·) <$> make ⟨name, detector, line, index⟩) found) []

/-- Why a detector is not registered. -/
inductive Fault where
  | nameTaken (name : String)
  deriving DecidableEq, Repr

/-- What is said about a detector that is not registered. -/
def Fault.message : Fault → String
  | nameTaken name => "Detector already registered: " ++ name

/-- What a registry is asked to do. -/
inductive Step (γ α : Type) where
  | register (name : String) (detector : Detector γ α)
  | run (source : γ) (lines : List (List Char))

/-- What comes of a step. -/
inductive Answer (ε β : Type) where
  | registered
  | refused (fault : Fault)
  /-- A run ended with what was found, or with the failure of a call. -/
  | ran (found : Except ε (List β))
  deriving Repr

/-- The answer to a step, and the registry after it. -/
def perform {m : Type → Type} [Monad m] (make : γ → Call γ α → ExceptT ε m (List β))
    (r : Registry γ α) : Step γ α → m (Answer ε β × Registry γ α)
  | .register name detector =>
    match r.register? name detector with
    | some r => pure (.registered, r)
    | none => pure (.refused (.nameTaken name), r)
  | .run source lines => do
    return (.ran (← (r.runWith (make source) lines).run), r)

@[simp] theorem names_empty : (empty : Registry γ α).names = [] := rfl

theorem register?_eq_none_iff {r : Registry γ α} {name : String} {d : Detector γ α} :
    r.register? name d = none ↔ name ∈ r.names := by
  unfold register?
  split <;> simp_all

theorem names_of_register? {r r' : Registry γ α} {name : String} {d : Detector γ α}
    (h : r.register? name d = some r') : r'.names = r.names ++ [name] := by
  unfold register? at h
  split at h
  · simp at h
  · rw [Option.some.injEq] at h
    subst h
    simp [names]

end Registry

end FrontendAudit.Rule
