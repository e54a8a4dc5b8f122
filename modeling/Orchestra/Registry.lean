import Orchestra.Fault

/-!
# Orchestra.Registry — which providers serve which kind

For every kind the registry lists its providers in the order in which they were registered; kinds without providers are
not listed.  A registration is a handle on one provider and the kinds it was registered for.  `dispose` withdraws it, once,
and says what is left to do: the callbacks to run, and whether the provider itself is to be disposed of because no other
kind lists it.
-/

namespace Orchestra

/-- A provider as the registry sees it.  `index` is its identity; different providers may share an id. -/
structure ProviderRef where
  index : Nat
  id : String
  capabilities : List Capability
  deriving DecidableEq, Repr, Inhabited

/-- The providers of each kind, in the order in which the kinds were first listed. -/
structure Registry where
  lists : List (Capability × List ProviderRef) := []
  deriving DecidableEq, Repr, Inhabited

namespace Registry

def providersFor (r : Registry) (kind : Capability) : List ProviderRef := (r.lists.lookup kind).getD []

def kinds (r : Registry) : List Capability := r.lists.map Prod.fst

def isEnabled (r : Registry) : Bool := r.lists.any fun l => !l.2.isEmpty

def all (r : Registry) : List ProviderRef := r.lists.flatMap Prod.snd

def lists? (r : Registry) (p : ProviderRef) : Bool := r.all.any (·.index == p.index)

/-- The number of different providers. -/
def size (r : Registry) : Nat := (r.all.map ProviderRef.index).eraseDups.length

/-- The kinds that a registration is for: those asked for, each once, or else all that fan out. -/
def selection (p : ProviderRef) : Option (List Capability) → List Capability
  | none => Capability.all.filter fun k => p.capabilities.contains k && k.fansOut
  | some kinds => kinds.eraseDups

/-- Appends a provider to the list of a kind. -/
def append (lists : List (Capability × List ProviderRef)) (p : ProviderRef) (kind : Capability) :
    List (Capability × List ProviderRef) :=
  match lists with
  | [] => [(kind, [p])]
  | (k, ps) :: rest => if k = kind then (k, ps ++ [p]) :: rest else (k, ps) :: append rest p kind

/-- Takes a provider off the list of a kind, and the kind with it if no provider is left. -/
def withdraw (lists : List (Capability × List ProviderRef)) (p : ProviderRef) (kind : Capability) :
    List (Capability × List ProviderRef) :=
  match lists with
  | [] => []
  | (k, ps) :: rest =>
    if k = kind then
      match ps.filter (·.index != p.index) with
      | [] => rest
      | q :: qs => (k, q :: qs) :: rest
    else (k, ps) :: withdraw rest p kind

/-- Lists a provider for the kinds, or refuses: every kind has to be declared, and no provider of the same id listed. -/
def register (r : Registry) (p : ProviderRef) (kinds : Option (List Capability)) :
    Except Fault (Registry × List Capability) :=
  let selected := selection p kinds
  match selected.find? (!p.capabilities.contains ·) with
  | some k => .error (.unsupported k (some
      ("Provider '" ++ p.id ++ "' does not declare capability '" ++ k.value ++ "'")))
  | none =>
    match selected.find? fun k => (r.providersFor k).any (·.id == p.id) with
    | some k => .error (.duplicateProvider p.id k)
    | none => .ok (⟨selected.foldl (append · p) r.lists⟩, selected)

def unregister (r : Registry) (p : ProviderRef) (kinds : List Capability) : Registry :=
  ⟨kinds.foldl (withdraw · p) r.lists⟩

end Registry

/-- A handle on one registration, with the callbacks to run when it is disposed of. -/
structure Registration (Callback : Type) where
  provider : ProviderRef
  kinds : List Capability
  disposed : Bool := false
  callbacks : List Callback := []
  deriving Repr

/-- What disposing of a registration leaves to be done: the callbacks first, then perhaps the provider. -/
structure Disposal (Callback : Type) where
  provider : ProviderRef
  callbacks : List Callback
  disposesProvider : Bool
  deriving Repr

/-- A registry with every handle that it ever gave out, by number. -/
structure Ledger (Callback : Type) where
  registry : Registry := {}
  registrations : List (Registration Callback) := []
  deriving Repr

namespace Ledger

variable {Callback : Type}

/-- The ledger after a registration; its handle has the next number. -/
def register (l : Ledger Callback) (p : ProviderRef) (kinds : Option (List Capability)) :
    Except Fault (Ledger Callback × Nat) := do
  let (registry, selected) ← l.registry.register p kinds
  return (⟨registry, l.registrations ++ [{ provider := p, kinds := selected }]⟩, l.registrations.length)

/-- Adds a callback to a handle; on a disposed handle it never runs. -/
def onDispose (l : Ledger Callback) (handle : Nat) (callback : Callback) : Ledger Callback :=
  { l with registrations :=
      l.registrations.modify handle fun r => { r with callbacks := r.callbacks ++ [callback] } }

/-- The ledger after disposing of a handle, and what is left to be done; nothing if it was disposed of before. -/
def dispose (l : Ledger Callback) (handle : Nat) : Ledger Callback × Option (Disposal Callback) :=
  match l.registrations[handle]? with
  | none => (l, none)
  | some r =>
    if r.disposed then (l, none)
    else
      let registry := l.registry.unregister r.provider r.kinds
      let registrations := l.registrations.modify handle fun r => { r with disposed := true, callbacks := [] }
      (⟨registry, registrations⟩, some ⟨r.provider, r.callbacks, !registry.lists? r.provider⟩)

def isDisposed (l : Ledger Callback) (handle : Nat) : Bool := (l.registrations[handle]?).any (·.disposed)

end Ledger

end Orchestra
