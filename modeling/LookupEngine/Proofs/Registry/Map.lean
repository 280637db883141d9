import LookupEngine.Lookup.Builtin
import LookupEngine.Proofs.Text.ByteOrder
import LookupEngine.Proofs.Text.Entries
/-!
# Registries as maps

Whatever is registered and removed, a registry shows its callers one map: under each name stands
what the last change of that name has left there.  All observers agree on it, a registration that
is refused leaves no trace, and the cards are those of instances that the factories of this map
build, in the order of the bytes of their names.
-/

namespace LookupEngine.Registry

/-- A change of a registry. -/
inductive Operation (Factory : Type) where
  | register (name : String) (factory : Factory)
  | tryRegister (name : String) (factory : Factory)
  | unregister (name : String)

/-- Where a registry comes from: it is new, or it holds the lookups of the program, each made a
factory in some way. -/
inductive Origin (Factory : Type) where
  | new
  | builtins (make : Plugin → Factory)

variable {Factory State : Type}

namespace Operation

def name : Operation Factory → String
  | register name _ => name
  | tryRegister name _ => name
  | unregister name => name

/-- What an operation leaves under its name, where `held` was before. -/
def leaves (held : Option Factory) : Operation Factory → Option Factory
  | register _ factory => some factory
  | tryRegister _ factory => some (held.getD factory)
  | unregister _ => none

end Operation

/-- What some operations leave under each name: those on that name have their say in order, and
the others have none. -/
def lastWritten (held : String → Option Factory) (operations : List (Operation Factory))
    (name : String) : Option Factory :=
  (operations.filter fun operation => operation.name = name).foldl Operation.leaves (held name)

/-- The registry after an operation; a registration that is refused changes nothing. -/
def apply (registry : Registry Factory) : Operation Factory → Registry Factory
  | .register name factory => registry.register name factory
  | .tryRegister name factory =>
    match registry.tryRegister name factory with
    | .ok registry => registry
    | .error _ => registry
  | .unregister name => (registry.unregister name).2

/-- The registry after some operations in order. -/
def after (registry : Registry Factory) (operations : List (Operation Factory)) :
    Registry Factory :=
  operations.foldl apply registry

namespace Origin

def registry : Origin Factory → Registry Factory
  | new => empty
  | builtins make => builtinWith make

/-- What stands under each name at first. -/
def held : Origin Factory → String → Option Factory
  | new, _ => none
  | builtins make, name => (Lookup.builtins.find? fun plugin => plugin.card.name = name).map make

end Origin

/-- The cards of the instances that the factories under some names build one after the other. -/
inductive Builds (build : Factory → StateM State Instance) (held : String → Option Factory) :
    List String → State → List Card → State → Prop
  | nil (state : State) : Builds build held [] state [] state
  | cons {name : String} {names : List String} {factory : Factory} {inst : Instance}
      {state between last : State} {cards : List Card} (hheld : held name = some factory)
      (hbuilt : (build factory).run state = (inst, between))
      (hrest : Builds build held names between cards last) :
      Builds build held (name :: names) state (inst.plugin.card :: cards) last

/-- The map that a registry is. -/
def held? (registry : Registry Factory) (name : String) : Option Factory :=
  registry.factories.find? name

/-- What callers see of a registry that stands for the map `held`. -/
structure Shows (registry : Registry Factory) (held : String → Option Factory) : Prop where
  contains_iff : ∀ name, registry.contains name = true ↔ (held name).isSome = true
  mem_list_iff : ∀ name, name ∈ registry.list ↔ (held name).isSome = true
  nodup_list : registry.list.Nodup
  ordered_list : registry.list.Pairwise fun a b => Utf8.encode a < Utf8.encode b
  size_eq : registry.size = registry.list.length
  isEmpty_iff : registry.isEmpty = true ↔ ∀ name, held name = none
  getWith_held : ∀ (State : Type) (build : Factory → StateM State Instance) name factory state,
    held name = some factory → (registry.getWith build name).run state =
      (.ok ((build factory).run state).1, ((build factory).run state).2)
  getWith_free : ∀ (State : Type) (build : Factory → StateM State Instance) name state,
    held name = none →
      (registry.getWith build name).run state = (.error (.unknownLookup name), state)
  describeWith_builds : ∀ (State : Type) (build : Factory → StateM State Instance) state,
    Builds build held registry.list state ((registry.describeWith build).run state).1
      ((registry.describeWith build).run state).2

theorem factory?_of_held? {registry : Registry Factory} {name : String} {factory : Factory}
    (h : registry.held? name = some factory) :
    registry.factory? name = .ok factory := by
  rw [factory?, ← held?, h]

theorem run_getWith_of_held? (build : Factory → StateM State Instance)
    {registry : Registry Factory} {name : String} {factory : Factory}
    (h : registry.held? name = some factory) (state : State) :
    (registry.getWith build name).run state =
      (.ok ((build factory).run state).1, ((build factory).run state).2) := by
  rw [getWith, factory?_of_held? h]
  rfl

theorem run_getWith_of_free (build : Factory → StateM State Instance)
    {registry : Registry Factory} {name : String}
    (h : registry.held? name = none) (state : State) :
    (registry.getWith build name).run state = (.error (.unknownLookup name), state) := by
  rw [getWith, factory?, ← held?, h]
  rfl

theorem get_of_held? {registry : Registry} {name : String} {plugin : Plugin}
    (h : registry.held? name = some plugin) : registry.get name = .ok plugin.fresh :=
  congrArg Prod.fst (run_getWith_of_held? buildFresh h ())

/-- Instances are built in the order of the names, each from what the one before has left. -/
theorem builds_mapM_getWith (build : Factory → StateM State Instance)
    (registry : Registry Factory) {names : List String}
    (hnames : ∀ name ∈ names, (registry.held? name).isSome = true) (state : State) :
    Builds build registry.held? names state
      (((names.mapM (registry.getWith build)).run state).1.filterMap cardOf?)
      ((names.mapM (registry.getWith build)).run state).2 := by
  induction names generalizing state with
  | nil => exact .nil state
  | cons name names ih =>
    obtain ⟨hname, hrest⟩ := List.forall_mem_cons.1 hnames
    obtain ⟨factory, hfactory⟩ := Option.isSome_iff_exists.1 hname
    rw [List.mapM_cons, StateT.run_bind, run_getWith_of_held? build hfactory]
    exact .cons hfactory rfl (ih hrest _)

/-- Sorted factories show the map that they are. -/
theorem shows_held? {registry : Registry Factory} (h : registry.factories.Sorted) :
    registry.Shows registry.held? where
  contains_iff _ := Iff.rfl
  mem_list_iff _ := Entries.mem_keys_iff
  nodup_list := h.nodup_keys
  ordered_list := h.pairwise_keys.imp fun hlt => Utf8.encode_lt_encode hlt
  size_eq := (Entries.length_keys _).symm
  isEmpty_iff := List.isEmpty_iff.trans Entries.forall_find?_eq_none_iff.symm
  getWith_held _ build _ _ state hheld := run_getWith_of_held? build hheld state
  getWith_free _ build _ state hfree := run_getWith_of_free build hfree state
  describeWith_builds _ build state :=
    builds_mapM_getWith build registry (fun _ hname => Entries.mem_keys_iff.1 hname) state

theorem tryRegister_eq (registry : Registry Factory) (name : String) (factory : Factory) :
    registry.tryRegister name factory =
      if (registry.held? name).isSome then .error (.alreadyRegistered name)
      else .ok (registry.register name factory) := rfl

theorem sorted_apply {registry : Registry Factory} (h : registry.factories.Sorted)
    (operation : Operation Factory) : (registry.apply operation).factories.Sorted := by
  cases operation with
  | register name factory => exact h.insert name factory
  | tryRegister name factory =>
    rw [apply, tryRegister_eq]
    split_ifs
    · exact h
    · exact h.insert name factory
  | unregister name => exact h.erase name

/-- An operation has its say under its own name and nowhere else. -/
theorem held?_apply {registry : Registry Factory} (h : registry.factories.Sorted)
    (operation : Operation Factory) (name : String) :
    (registry.apply operation).held? name =
      if operation.name = name then operation.leaves (registry.held? name)
      else registry.held? name := by
  cases operation with
  | register other factory => exact Entries.find?_insert _ _ _ _
  | tryRegister other factory =>
    rw [apply, tryRegister_eq]
    split_ifs with htaken hname hname
    · obtain rfl : other = name := hname
      obtain ⟨found, hfound⟩ := Option.isSome_iff_exists.1 htaken
      rw [hfound, Operation.leaves, Option.getD_some]
    · rfl
    · obtain rfl : other = name := hname
      rw [Option.not_isSome_iff_eq_none.1 htaken]
      exact Entries.find?_insert_self _ _ _
    · exact Entries.find?_insert_of_ne (Ne.symm hname) _ _
  | unregister other => exact h.find?_erase other name

theorem lastWritten_cons (held : String → Option Factory) (operation : Operation Factory)
    (rest : List (Operation Factory)) (name : String) :
    lastWritten held (operation :: rest) name =
      lastWritten (fun name =>
        if operation.name = name then operation.leaves (held name) else held name) rest name := by
  by_cases h : operation.name = name <;> simp [lastWritten, h]

theorem after_cons (registry : Registry Factory) (operation : Operation Factory)
    (rest : List (Operation Factory)) :
    registry.after (operation :: rest) = (registry.apply operation).after rest := rfl

/-- After any operations each name holds what was written there last. -/
theorem after_spec {registry : Registry Factory} (h : registry.factories.Sorted)
    (operations : List (Operation Factory)) :
    (registry.after operations).factories.Sorted ∧
      (registry.after operations).held? = lastWritten registry.held? operations := by
  induction operations generalizing registry with
  | nil => exact ⟨h, rfl⟩
  | cons operation rest ih =>
    obtain ⟨hsorted, hfind⟩ := ih (sorted_apply h operation)
    refine ⟨hsorted, ?_⟩
    funext name
    rw [lastWritten_cons, ← funext (held?_apply h operation), ← hfind, after_cons]

theorem after_append (registry : Registry Factory) (front back : List (Operation Factory)) :
    registry.after (front ++ back) = (registry.after front).after back :=
  List.foldl_append

/-- Plugins that are registered under names of their own are found under these. -/
theorem lastWritten_registered (make : Plugin → Factory) (held : String → Option Factory)
    {plugins : List Plugin} (hnames : (plugins.map fun plugin => plugin.card.name).Nodup)
    (name : String) :
    lastWritten held
        (plugins.map fun plugin => .register plugin.card.name (make plugin)) name =
      ((plugins.find? fun plugin => plugin.card.name = name).map make).or (held name) := by
  induction plugins generalizing held with
  | nil => rfl
  | cons plugin rest ih =>
    obtain ⟨hfirst, hrest⟩ := List.nodup_cons.1 hnames
    rw [List.map_cons, lastWritten_cons, ih _ hrest]
    by_cases hname : plugin.card.name = name
    · have hnone : (rest.find? fun plugin => plugin.card.name = name) = none := by
        rw [List.find?_eq_none]
        intro other hother
        have hne : other.card.name ≠ name := by
          intro hsame
          exact hfirst (List.mem_map.2 ⟨other, hother, hsame.trans hname.symm⟩)
        simpa using hne
      rw [hnone, List.find?_cons_of_pos (by simpa using hname)]
      simp [Operation.name, Operation.leaves, hname]
    · rw [List.find?_cons_of_neg (by simpa using hname)]
      simp [Operation.name, hname]

theorem nodup_builtin_names : (Lookup.builtins.map fun plugin => plugin.card.name).Nodup := by
  decide +kernel

theorem builtinWith_eq_after (make : Plugin → Factory) :
    builtinWith make =
      empty.after
        (Lookup.builtins.map fun plugin => .register plugin.card.name (make plugin)) := by
  rw [after, List.foldl_map]
  rfl

theorem origin_spec (origin : Origin Factory) :
    origin.registry.factories.Sorted ∧ origin.registry.held? = origin.held := by
  cases origin with
  | new => exact ⟨Entries.sorted_nil, rfl⟩
  | builtins make =>
    obtain ⟨hsorted, hfind⟩ := @after_spec Factory empty Entries.sorted_nil
      (Lookup.builtins.map fun plugin => .register plugin.card.name (make plugin))
    rw [Origin.registry, builtinWith_eq_after]
    refine ⟨hsorted, ?_⟩
    funext name
    rw [hfind, lastWritten_registered make _ nodup_builtin_names]
    exact Option.or_none

/-- After any operations a registry shows the map of what was written last.  Removing a name tells
whether it was there and takes nothing else away; a name that is taken is not registered again,
and the attempt is not to be seen in anything that follows. -/
theorem after_shows_lastWritten (origin : Origin Factory)
    (operations : List (Operation Factory)) :
    (origin.registry.after operations).Shows (lastWritten origin.held operations) ∧
      (∀ name,
        ((origin.registry.after operations).unregister name).1 =
            (lastWritten origin.held operations name).isSome ∧
          ((origin.registry.after operations).unregister name).2.Shows fun other =>
            if name = other then none else lastWritten origin.held operations other) ∧
      ∀ name factory,
        (origin.registry.after operations).tryRegister name factory =
            (if (lastWritten origin.held operations name).isSome
              then .error (.alreadyRegistered name)
              else .ok ((origin.registry.after operations).register name factory)) ∧
          ∀ later,
            origin.registry.after (operations ++ .tryRegister name factory :: later) =
              origin.registry.after (operations ++
                if (lastWritten origin.held operations name).isSome then later
                else .register name factory :: later) := by
  obtain ⟨hsorted, hheld⟩ := origin_spec origin
  obtain ⟨hafter, hfind⟩ := after_spec hsorted operations
  rw [hheld] at hfind
  rw [← hfind]
  refine ⟨shows_held? hafter, fun name => ⟨rfl, ?_⟩, fun name factory => ⟨rfl, ?_⟩⟩
  · have hremoved : ((origin.registry.after operations).unregister name).2.held? =
        fun other => if name = other then none
          else (origin.registry.after operations).held? other :=
      funext (hafter.find?_erase name)
    rw [← hremoved]
    exact shows_held? (hafter.erase name)
  · intro later
    rw [after_append, after_append, after_cons, apply, tryRegister_eq]
    split_ifs
    · rfl
    · rfl

end LookupEngine.Registry
