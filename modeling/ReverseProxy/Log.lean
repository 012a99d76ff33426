/-!
# What is logged

The steps of loading a configuration that are worth a line of debug output, each under the name of
the part that took it.
-/

namespace ReverseProxy

inductive Event where
  | readFile (path : String) (length : Nat)
  | readNodes (count : Nat) (source : String)
  | blockDone
  | listeners (count : Nat)
  | upstreams (count : Nat)
  | service (name : String)
  | bundle (source : String) (services chains keyProfiles : Nat)
  | loaded (count : Nat) (path : String)
  | failed (operation code source : String) (line : Nat)
  deriving DecidableEq, Repr

namespace Event

def logger : Event → String
  | .readFile .. => "proxyconf.infrastructure.sources"
  | .readNodes .. => "proxyconf.infrastructure.reader"
  | .blockDone => "proxyconf.parser.block"
  | .listeners _ => "proxyconf.sections.listeners"
  | .upstreams _ => "proxyconf.sections.connectors"
  | .service _ => "proxyconf.sections.service"
  | .bundle .. => "proxyconf.sections.root"
  | .loaded .. | .failed .. => "proxyconf.services.config"

def message : Event → String
  | .readFile path length => s!"Read config file {path} ({length} chars)"
  | .readNodes count source => s!"Read {count} top-level nodes from {source}"
  | .blockDone => "Block exhausted cleanly"
  | .listeners count => s!"Parsed {count} listeners"
  | .upstreams count => s!"Parsed {count} upstreams"
  | .service name => s!"Parsed service {name}"
  | .bundle source services chains keyProfiles =>
      s!"Parsed {source}: {services} services, {chains} chains, {keyProfiles} key profiles"
  | .loaded count path => s!"Loaded {count} documents from {path}"
  | .failed operation code source line => s!"{operation} failed: {code} at {source}:{line}"

end Event

/-- A result together with what was logged on the way to it. -/
structure Logged (ε α : Type) where
  log : List Event
  result : Except ε α

namespace Logged

variable {ε α β : Type}

def bind (first : Logged ε α) (next : α → Logged ε β) : Logged ε β :=
  match first.result with
  | .ok value => ⟨first.log ++ (next value).log, (next value).result⟩
  | .error failure => ⟨first.log, .error failure⟩

instance : Monad (Logged ε) where
  pure value := ⟨[], .ok value⟩
  bind := bind

instance : LawfulMonad (Logged ε) := LawfulMonad.mk' (Logged ε)
  (by
    rintro α ⟨log, result⟩
    cases result
    · rfl
    · show (⟨log ++ [], _⟩ : Logged ε α) = _
      rw [List.append_nil]
      rfl)
  (fun _ _ => rfl)
  (by
    rintro α β γ ⟨log, result⟩ f g
    cases result with
    | error failure => rfl
    | ok value =>
      show bind (bind ⟨log, .ok value⟩ f) g = bind ⟨log, .ok value⟩ fun value => bind (f value) g
      simp only [bind]
      cases (f value).result <;> simp [List.append_assoc])

instance : MonadLift (Except ε) (Logged ε) where
  monadLift result := ⟨[], result⟩

def note (event : Event) : Logged ε Unit := ⟨[event], .ok ()⟩

/-- Steps that are taken at the same time. They are done with in the order `finished`, and the first
that fails in this order is the failure of them all. -/
def gather (finished values : List α) (step : α → Logged ε β) : Logged ε (List β) :=
  let steps := finished.map step
  ⟨steps.flatMap log, do
    let _ ← steps.mapM result
    values.mapM fun value => (step value).result⟩

@[simp]
theorem result_pure (value : α) : (pure value : Logged ε α).result = .ok value := rfl

@[simp]
theorem result_lift (result : Except ε α) : (liftM result : Logged ε α).result = result := rfl

@[simp]
theorem result_note (event : Event) : (note event : Logged ε Unit).result = .ok () := rfl

@[simp]
theorem result_bind (first : Logged ε α) (next : α → Logged ε β) :
    (first >>= next).result = first.result >>= fun value => (next value).result := by
  show (bind first next).result = _
  unfold bind
  cases h : first.result <;> rfl

@[simp]
theorem result_map (f : α → β) (first : Logged ε α) :
    (f <$> first).result = f <$> first.result := by
  show (bind first fun value => pure (f value)).result = _
  unfold bind
  cases h : first.result <;> rfl

/-- Logged steps over a list, in order. -/
theorem result_mapM (f : α → Logged ε β) (values : List α) :
    (values.mapM f).result = values.mapM fun value => (f value).result := by
  induction values with
  | nil => rfl
  | cons value values ih => simp [List.mapM_cons, ih]

end Logged

end ReverseProxy
