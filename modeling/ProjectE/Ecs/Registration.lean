import Mathlib.Data.List.Nodup
import ProjectE.Lib.Transition
import ProjectE.Ecs.Query
import ProjectE.Ecs.SystemTree

/-!
# Registration

The part of `AEntityManager` that registers pools and systems. The systems belong to the caller and
are pointed to from the trees, so the state holds what each pointer points to. A system is offered
the pools known when it is registered, in a loop before it is put into its tree; a pool registered
later is offered to every system of the two trees. A call is the offers it makes and the change to
the trees, and `effect_of_run` says both at once.

Two laws. After any calls that answer true the queries of the systems passed to them depend on the
list of the pools passed to them alone (`registered_queries_exact`). A call that answers false has
made its offers all the same: it leaves no trace exactly if no registered pool matches a query of
its systems (`failed_registration_iff`).
-/

namespace ProjectE.Ecs

open Verif

/-- `ROOT_SYS_GROUP` and `FIXED_ROOT_SYS_GROUP`. -/
def ROOT_SYS_GROUP : String := "ROOT"
/-- The group of the root of the fixed tree. -/
def FIXED_ROOT_SYS_GROUP : String := "FIXED_ROOT"

/-- What the pointers to systems point to. -/
abbrev Systems (S P : Type) := S → ISystem P

/-- `AEntityManager`, with the systems its trees point to. The trees have pointers only, so what a
system has taken is kept outside of them. -/
structure AEntityManager (S P : Type) where
  entityPools : List (IArchetypePool P)
  systemTree : SystemTree S
  fixedSystemTree : SystemTree S
  systems : Systems S P

section Definitions

variable {S P : Type} [DecidableEq S]

/-- A pool is offered to one system; the others are left as they are. -/
def Systems.tryAddEntityPool (entityPool : IArchetypePool P) (systems : Systems S P) (system : S) :
    Systems S P :=
  Function.update systems system ((systems system).tryAddEntityPool entityPool).2

namespace SystemTreeNode

mutual

/-- `registerEntityPool` of a node: the pool is offered to the systems at the start, to the
children, and to the systems at the end. -/
def registerEntityPool (entityPool : IArchetypePool P) :
    SystemTreeNode S → Systems S P → Systems S P
  | .node _ _ startSystems children endSystems, systems =>
    endSystems.foldl (Systems.tryAddEntityPool entityPool)
      (registerChildren entityPool children
        (startSystems.foldl (Systems.tryAddEntityPool entityPool) systems))

/-- The loop over the children. -/
def registerChildren (entityPool : IArchetypePool P) :
    List (SystemTreeNode S) → Systems S P → Systems S P
  | [], systems => systems
  | child :: children, systems =>
    registerChildren entityPool children (registerEntityPool entityPool child systems)

end

end SystemTreeNode

namespace AEntityManager

omit [DecidableEq S] in
/-- `AEntityManager(fixedUpdateTime)`, among systems already made. -/
def new (systems : Systems S P) : AEntityManager S P where
  entityPools := []
  systemTree := .new ROOT_SYS_GROUP
  fixedSystemTree := .new FIXED_ROOT_SYS_GROUP
  systems := systems

/-- `registerSystemGroup`: a group without systems has nothing to be offered. -/
def registerSystemGroup (m : AEntityManager S P) (targetGroup newGroup : String)
    (addBefore addInside : Bool) : Bool × AEntityManager S P :=
  let (added, systemTree) := m.systemTree.addSystemGroup targetGroup newGroup addBefore addInside
  (added, { m with systemTree := systemTree })

/-- `registerSystem`: every pool is offered to the system before its place in the tree is looked
for, so a call that finds none leaves the offers behind. -/
def registerSystem (m : AEntityManager S P) (system : S) (group : String) (atStart : Bool) :
    Bool × AEntityManager S P :=
  let systems := m.entityPools.foldl (fun systems entityPool =>
    systems.tryAddEntityPool entityPool system) m.systems
  let (added, systemTree) := m.systemTree.addSystem system group atStart
  (added, { m with systems := systems, systemTree := systemTree })

/-- `registerSystemNode`: the same for all systems of a node. -/
def registerSystemNode (m : AEntityManager S P) (node : SystemTreeNode S) (targetGroup : String)
    (addBefore addInside : Bool) : Bool × AEntityManager S P :=
  let systems := m.entityPools.foldl (fun systems entityPool =>
    node.registerEntityPool entityPool systems) m.systems
  let (added, systemTree) := m.systemTree.addSystemTreeNode node targetGroup addBefore addInside
  (added, { m with systems := systems, systemTree := systemTree })

/-- `registerFixedSystemGroup`: the same in the fixed tree. -/
def registerFixedSystemGroup (m : AEntityManager S P) (targetGroup newGroup : String)
    (addBefore addInside : Bool) : Bool × AEntityManager S P :=
  let (added, fixedSystemTree) :=
    m.fixedSystemTree.addSystemGroup targetGroup newGroup addBefore addInside
  (added, { m with fixedSystemTree := fixedSystemTree })

/-- `registerFixedSystem`: the same in the fixed tree. -/
def registerFixedSystem (m : AEntityManager S P) (system : S) (group : String) (atStart : Bool) :
    Bool × AEntityManager S P :=
  let systems := m.entityPools.foldl (fun systems entityPool =>
    systems.tryAddEntityPool entityPool system) m.systems
  let (added, fixedSystemTree) := m.fixedSystemTree.addSystem system group atStart
  (added, { m with systems := systems, fixedSystemTree := fixedSystemTree })

/-- `registerFixedSystemNode`: the same in the fixed tree. -/
def registerFixedSystemNode (m : AEntityManager S P) (node : SystemTreeNode S)
    (targetGroup : String) (addBefore addInside : Bool) : Bool × AEntityManager S P :=
  let systems := m.entityPools.foldl (fun systems entityPool =>
    node.registerEntityPool entityPool systems) m.systems
  let (added, fixedSystemTree) :=
    m.fixedSystemTree.addSystemTreeNode node targetGroup addBefore addInside
  (added, { m with systems := systems, fixedSystemTree := fixedSystemTree })

/-- `registerEntityPool`: the pool is offered to every system of both trees before it is put at the
end of the list. -/
def registerEntityPool (m : AEntityManager S P) (entityPool : IArchetypePool P) :
    Bool × AEntityManager S P :=
  let systems := m.systemTree.registerEntityPool entityPool m.systems
  let systems := m.fixedSystemTree.registerEntityPool entityPool systems
  (true, { m with systems := systems, entityPools := m.entityPools ++ [entityPool] })

/-- The systems the two trees point to, in the order a pool is offered to them. -/
def registered (m : AEntityManager S P) : List S :=
  m.systemTree.systems ++ m.fixedSystemTree.systems

end AEntityManager

/-- A call of one of the functions that register. -/
inductive Call (S P : Type) where
  | entityPool (entityPool : IArchetypePool P)
  | systemGroup (targetGroup newGroup : String) (addBefore addInside : Bool)
  | system (system : S) (group : String) (atStart : Bool)
  | systemNode (node : SystemTreeNode S) (targetGroup : String) (addBefore addInside : Bool)
  | fixedSystemGroup (targetGroup newGroup : String) (addBefore addInside : Bool)
  | fixedSystem (system : S) (group : String) (atStart : Bool)
  | fixedSystemNode (node : SystemTreeNode S) (targetGroup : String) (addBefore addInside : Bool)

namespace Call

/-- What a call answers, and the manager after it. -/
def run (m : AEntityManager S P) : Call S P → Bool × AEntityManager S P
  | .entityPool pool => m.registerEntityPool pool
  | .systemGroup targetGroup newGroup addBefore addInside =>
    m.registerSystemGroup targetGroup newGroup addBefore addInside
  | .system s group atStart => m.registerSystem s group atStart
  | .systemNode node targetGroup addBefore addInside =>
    m.registerSystemNode node targetGroup addBefore addInside
  | .fixedSystemGroup targetGroup newGroup addBefore addInside =>
    m.registerFixedSystemGroup targetGroup newGroup addBefore addInside
  | .fixedSystem s group atStart => m.registerFixedSystem s group atStart
  | .fixedSystemNode node targetGroup addBefore addInside =>
    m.registerFixedSystemNode node targetGroup addBefore addInside

omit [DecidableEq S] in
/-- The systems a call registers. -/
def involved : Call S P → List S
  | .system s _ _ => [s]
  | .systemNode node _ _ _ => node.systems
  | .fixedSystem s _ _ => [s]
  | .fixedSystemNode node _ _ _ => node.systems
  | _ => []

omit [DecidableEq S] in
/-- The pool it registers. -/
def pools : Call S P → List (IArchetypePool P)
  | .entityPool pool => [pool]
  | _ => []

omit [DecidableEq S] in
/-- A pool of the call is new to the manager, and so is a system. -/
def Distinct (m : AEntityManager S P) (c : Call S P) : Prop :=
  (∀ pool ∈ c.pools, pool.ptr ∉ m.entityPools.map (·.ptr)) ∧ c.involved.Nodup ∧
    ∀ s ∈ c.involved, s ∉ m.registered

end Call

omit [DecidableEq S] in
/-- Systems whose queries are as they were made. -/
def Systems.Fresh (systems : Systems S P) : Prop :=
  ∀ s, ∀ query ∈ (systems s).queries, query = .new query.componentNames

/-- Calls that answer true. -/
def registration (S P : Type) [DecidableEq S] : Machine (AEntityManager S P) (Call S P) where
  init m := ∃ systems : Systems S P, systems.Fresh ∧ m = .new systems
  step m c := if (c.run m).1 = true then some (c.run m).2 else none

end Definitions

/-! ## Offers to one system -/

namespace Query

variable {P : Type}

/-- The query with the pools it takes out of those offered to it. -/
def withPools (pools : List (IArchetypePool P)) (query : Query P) : Query P :=
  { query with
    componentPoolsArrays := query.componentPoolsArrays ++
      (pools.filter (query.Matches ·)).map query.componentPoolsArray }

theorem withPools_nil (query : Query P) : query.withPools [] = query := by
  rw [withPools, List.filter_nil, List.map_nil, List.append_nil]

theorem withPools_append (pools pools' : List (IArchetypePool P)) (query : Query P) :
    query.withPools (pools ++ pools') = (query.withPools pools).withPools pools' := by
  simp only [withPools, List.filter_append, List.map_append, ← List.append_assoc]
  rfl

theorem withPools_singleton (pool : IArchetypePool P) (query : Query P) :
    query.withPools [pool] = (query.tryAddEntityPool pool).2 := by
  rw [tryAddEntityPool_eq, withPools]
  by_cases h : query.Matches pool
  · rw [if_pos h, List.filter_cons_of_pos (by simpa using h), List.filter_nil, List.map_singleton]
  · rw [if_neg h, List.filter_cons_of_neg (by simpa using h), List.filter_nil, List.map_nil,
      List.append_nil]

theorem withPools_eq_self_iff {pools : List (IArchetypePool P)} {query : Query P} :
    query.withPools pools = query ↔ ∀ pool ∈ pools, ¬ query.Matches pool := by
  constructor
  · intro h
    have harrays := congrArg componentPoolsArrays h
    rw [withPools, List.append_right_eq_self, List.map_eq_nil_iff,
      List.filter_eq_nil_iff] at harrays
    intro pool hpool hmatches
    exact harrays pool hpool (decide_eq_true hmatches)
  · intro h
    have hnone : pools.filter (query.Matches ·) = [] := by
      apply List.filter_eq_nil_iff.mpr
      intro pool hpool
      simpa using h pool hpool
    rw [withPools, hnone, List.map_nil, List.append_nil]

end Query

namespace ISystem

variable {P : Type}

theorem mapQueries_eq_self_iff {f : Query P → Query P} {system : ISystem P} :
    system.mapQueries f = system ↔ ∀ query ∈ system.queries, f query = query := by
  cases system with
  | mono query => simp only [mapQueries, mono.injEq, queries, List.forall_mem_singleton]
  | dual query1 query2 =>
    simp only [mapQueries, dual.injEq, queries, List.forall_mem_cons, List.not_mem_nil,
      false_imp_iff, forall_true_iff, and_true]

/-- Offering pools one after the other. -/
theorem foldl_tryAddEntityPool (pools : List (IArchetypePool P)) (system : ISystem P) :
    pools.foldl (fun system pool => (system.tryAddEntityPool pool).2) system =
      system.mapQueries (Query.withPools pools) := by
  induction pools generalizing system with
  | nil =>
    apply Eq.symm
    apply mapQueries_eq_self_iff.mpr
    intro query _
    exact query.withPools_nil
  | cons pool pools ih =>
    rw [List.foldl_cons, ih, tryAddEntityPool_snd, mapQueries_mapQueries]
    congr 1
    funext query
    rw [← Query.withPools_singleton, ← Query.withPools_append, List.singleton_append]

end ISystem

namespace Systems

variable {S P : Type} [DecidableEq S]

/-- Offers made one after the other. -/
def offer (systems : Systems S P) (offers : List (IArchetypePool P × S)) : Systems S P :=
  offers.foldl (fun systems e => systems.tryAddEntityPool e.1 e.2) systems

/-- The pools offered to a system. -/
def poolsFor (s : S) (offers : List (IArchetypePool P × S)) :
    List (IArchetypePool P) := (offers.filter (·.2 = s)).map (·.1)

/-- A system takes from the pools offered to it, whatever is offered to others in between. -/
theorem offer_apply (systems : Systems S P) (offers : List (IArchetypePool P × S)) (s : S) :
    systems.offer offers s = (systems s).mapQueries (Query.withPools (poolsFor s offers)) := by
  rw [← ISystem.foldl_tryAddEntityPool]
  induction offers generalizing systems with
  | nil => rfl
  | cons e offers ih =>
    rw [offer, List.foldl_cons]
    refine (ih (systems.tryAddEntityPool e.1 e.2)).trans ?_
    by_cases heq : e.2 = s
    · subst heq
      rw [Systems.tryAddEntityPool, Function.update_self]
      simp only [poolsFor, List.filter_cons, decide_true, if_true, List.map_cons, List.foldl_cons]
    · rw [Systems.tryAddEntityPool, Function.update_of_ne (Ne.symm heq)]
      simp only [poolsFor, List.filter_cons, heq, decide_false, Bool.false_eq_true, if_false]

/-- Offers leave no trace exactly if nobody takes one. -/
theorem offer_eq_self_iff {systems : Systems S P} {offers : List (IArchetypePool P × S)} :
    systems.offer offers = systems ↔
      ∀ e ∈ offers, ∀ query ∈ (systems e.2).queries, ¬ query.Matches e.1 := by
  rw [funext_iff]
  simp only [offer_apply, ISystem.mapQueries_eq_self_iff, Query.withPools_eq_self_iff]
  constructor
  · intro h e he query hquery
    apply h e.2 query hquery
    exact List.mem_map.mpr ⟨e, List.mem_filter.mpr ⟨he, decide_eq_true rfl⟩, rfl⟩
  · intro h s query hquery pool hpool
    obtain ⟨e, he, rfl⟩ := List.mem_map.mp hpool
    obtain ⟨hmem, heq⟩ := List.mem_filter.mp he
    cases of_decide_eq_true heq
    exact h e hmem query hquery

/-- Every pool offered to each of some systems. -/
def rounds (pools : List (IArchetypePool P)) (ss : List S) : List (IArchetypePool P × S) :=
  pools.flatMap fun pool => ss.map fun s => (pool, s)

omit [DecidableEq S] in
theorem rounds_nil (pools : List (IArchetypePool P)) : rounds pools ([] : List S) = [] := by
  induction pools with
  | nil => rfl
  | cons pool pools ih => exact ih

theorem poolsFor_rounds {ss : List S} (hnodup : ss.Nodup) (s : S)
    (pools : List (IArchetypePool P)) :
    poolsFor s (rounds pools ss) = if s ∈ ss then pools else [] := by
  induction pools with
  | nil =>
    split
    · rfl
    · rfl
  | cons pool pools ih =>
    have hround : poolsFor s (ss.map fun s => (pool, s)) = if s ∈ ss then [pool] else [] := by
      simp only [poolsFor, List.filter_map, List.map_map]
      have hcomp : ((fun e : IArchetypePool P × S => decide (e.2 = s)) ∘ fun s => (pool, s)) =
          fun s' => decide (s' = s) := rfl
      rw [hcomp]
      split
      next hmem =>
        rw [List.filter_eq, List.count_eq_one_of_mem hnodup hmem]
        rfl
      next hmem =>
        rw [List.filter_eq, List.count_eq_zero_of_not_mem hmem]
        rfl
    have hcons : poolsFor s (rounds (pool :: pools) ss) =
        poolsFor s (ss.map fun s => (pool, s)) ++ poolsFor s (rounds pools ss) := by
      simp only [poolsFor, rounds, List.flatMap_cons, List.filter_append, List.map_append]
    rw [hcons, hround, ih]
    split
    · rfl
    · rfl

end Systems

/-! ## What a call does -/

section Calls

variable {S P : Type} [DecidableEq S]

theorem Systems.offer_append (systems : Systems S P) (os os' : List (IArchetypePool P × S)) :
    systems.offer (os ++ os') = (systems.offer os).offer os' := List.foldl_append

mutual

/-- A node offers a pool to its systems, in order. -/
theorem SystemTreeNode.registerEntityPool_eq (pool : IArchetypePool P) :
    ∀ (node : SystemTreeNode S) (systems : Systems S P),
      node.registerEntityPool pool systems = systems.offer (node.systems.map fun s => (pool, s))
  | .node _ _ startSystems children endSystems, systems => by
    have ih := SystemTreeNode.registerChildren_eq pool children
      (startSystems.foldl (Systems.tryAddEntityPool pool) systems)
    simp only [SystemTreeNode.registerEntityPool, SystemTreeNode.systems, List.map_append,
      Systems.offer_append, ih]
    simp only [Systems.offer, List.foldl_map]

theorem SystemTreeNode.registerChildren_eq (pool : IArchetypePool P) :
    ∀ (nodes : List (SystemTreeNode S)) (systems : Systems S P),
      SystemTreeNode.registerChildren pool nodes systems =
        systems.offer ((SystemTreeNode.childrenSystems nodes).map fun s => (pool, s))
  | [], _ => rfl
  | child :: children, systems => by
    rw [SystemTreeNode.registerChildren, SystemTreeNode.registerEntityPool_eq pool child,
      SystemTreeNode.registerChildren_eq pool children, SystemTreeNode.childrenSystems,
      List.map_append, Systems.offer_append]

end

/-- The loop over the known pools. -/
theorem Systems.offer_rounds (ss : List S) (pools : List (IArchetypePool P))
    (systems : Systems S P) :
    systems.offer (rounds pools ss) =
      pools.foldl (fun systems pool => systems.offer (ss.map fun s => (pool, s))) systems := by
  induction pools generalizing systems with
  | nil => rfl
  | cons pool pools ih =>
    rw [List.foldl_cons, ← ih, ← Systems.offer_append]
    rfl

namespace Call

omit [DecidableEq S] in
/-- The offers a call makes: a new pool to all systems, or all pools to new systems. -/
def offers (m : AEntityManager S P) : Call S P → List (IArchetypePool P × S)
  | .entityPool pool => m.registered.map fun s => (pool, s)
  | c => Systems.rounds m.entityPools c.involved

/-- The offers are made, the pool is listed; the trees stay as they are if the call answers false,
and otherwise point to the systems involved besides the others. -/
structure Effect (m : AEntityManager S P) (c : Call S P) (answer : Bool)
    (m' : AEntityManager S P) : Prop where
  systems : m'.systems = m.systems.offer (c.offers m)
  entityPools : m'.entityPools = m.entityPools ++ c.pools
  failed : answer = false → c.pools = [] ∧ m'.systemTree = m.systemTree ∧
    m'.fixedSystemTree = m.fixedSystemTree
  succeeded : answer = true → m'.registered.Perm (c.involved ++ m.registered)

omit [DecidableEq S] in
/-- Systems put into the first tree. -/
theorem perm_registered_left {new ts ts' us : List S} (h : SystemTreeNode.Inserts new ts ts') :
    (ts' ++ us).Perm (new ++ (ts ++ us)) := by
  rw [← List.append_assoc]
  exact h.perm.append_right us

omit [DecidableEq S] in
/-- Systems put into the second. -/
theorem perm_registered_right {new ts us us' : List S} (h : SystemTreeNode.Inserts new us us') :
    (ts ++ us').Perm (new ++ (ts ++ us)) :=
  (h.append_left ts).perm

/-- The first tree changes, and the systems involved are offered all pools. -/
theorem effect_systemTree {m : AEntityManager S P} {c : Call S P} {answer : Bool}
    {tree : SystemTreeNode S} {systems : Systems S P} (hpools : c.pools = [])
    (hsystems : systems = m.systems.offer (c.offers m))
    (hfalse : answer = false → tree = m.systemTree)
    (htrue : answer = true →
      SystemTreeNode.Inserts c.involved m.systemTree.systems tree.systems) :
    c.Effect m answer { m with systemTree := tree, systems := systems } where
  systems := hsystems
  entityPools := by rw [hpools, List.append_nil]
  failed h := ⟨hpools, hfalse h, rfl⟩
  succeeded h := perm_registered_left (htrue h)

/-- The second tree changes. -/
theorem effect_fixedSystemTree {m : AEntityManager S P} {c : Call S P} {answer : Bool}
    {tree : SystemTreeNode S} {systems : Systems S P} (hpools : c.pools = [])
    (hsystems : systems = m.systems.offer (c.offers m))
    (hfalse : answer = false → tree = m.fixedSystemTree)
    (htrue : answer = true →
      SystemTreeNode.Inserts c.involved m.fixedSystemTree.systems tree.systems) :
    c.Effect m answer { m with fixedSystemTree := tree, systems := systems } where
  systems := hsystems
  entityPools := by rw [hpools, List.append_nil]
  failed h := ⟨hpools, rfl, hfalse h⟩
  succeeded h := perm_registered_right (htrue h)

theorem effect_of_run (m : AEntityManager S P) (c : Call S P) :
    c.Effect m (c.run m).1 (c.run m).2 := by
  -- no system, one, or those of a node are offered the pools
  have hgroup : m.systems = m.systems.offer (Systems.rounds m.entityPools []) := by
    rw [Systems.rounds_nil]
    rfl
  have hsystem (s : S) : m.entityPools.foldl (fun systems entityPool =>
      systems.tryAddEntityPool entityPool s) m.systems =
        m.systems.offer (Systems.rounds m.entityPools [s]) := by
    rw [Systems.offer_rounds]
    rfl
  have hnode (node : SystemTreeNode S) : m.entityPools.foldl (fun systems entityPool =>
      node.registerEntityPool entityPool systems) m.systems =
        m.systems.offer (Systems.rounds m.entityPools node.systems) := by
    simp only [Systems.offer_rounds, ← SystemTreeNode.registerEntityPool_eq]
  cases c with
  | entityPool pool =>
    refine ⟨?_, rfl, fun h => absurd h Bool.true_eq_false.mp, fun _ => List.Perm.refl _⟩
    show m.fixedSystemTree.registerEntityPool pool (m.systemTree.registerEntityPool pool m.systems)
      = _
    rw [SystemTreeNode.registerEntityPool_eq, SystemTreeNode.registerEntityPool_eq,
      ← Systems.offer_append, ← List.map_append]
    rfl
  | systemGroup targetGroup newGroup addBefore addInside =>
    exact effect_systemTree rfl hgroup SystemTreeNode.addSystemTreeNode_false
      SystemTreeNode.inserts_addSystemTreeNode
  | system s group atStart =>
    exact effect_systemTree rfl (hsystem s) SystemTreeNode.addSystem_false
      SystemTreeNode.inserts_addSystem
  | systemNode node targetGroup addBefore addInside =>
    exact effect_systemTree rfl (hnode node) SystemTreeNode.addSystemTreeNode_false
      SystemTreeNode.inserts_addSystemTreeNode
  | fixedSystemGroup targetGroup newGroup addBefore addInside =>
    exact effect_fixedSystemTree rfl hgroup SystemTreeNode.addSystemTreeNode_false
      SystemTreeNode.inserts_addSystemTreeNode
  | fixedSystem s group atStart =>
    exact effect_fixedSystemTree rfl (hsystem s) SystemTreeNode.addSystem_false
      SystemTreeNode.inserts_addSystem
  | fixedSystemNode node targetGroup addBefore addInside =>
    exact effect_fixedSystemTree rfl (hnode node) SystemTreeNode.addSystemTreeNode_false
      SystemTreeNode.inserts_addSystemTreeNode

end Call

/-! ## Order does not matter -/

variable {start : Systems S P} {m : AEntityManager S P}

/-- Every registered system has been offered every registered pool, in order; the others none. It
holds between any two calls, whichever of the two was registered first. -/
structure RegistrationInv (start : Systems S P) (m : AEntityManager S P) : Prop where
  pools : (m.entityPools.map (·.ptr)).Nodup
  nodup : m.registered.Nodup
  registered : ∀ s ∈ m.registered,
    m.systems s = (start s).mapQueries (Query.withPools m.entityPools)
  others : ∀ s ∉ m.registered, m.systems s = start s

theorem ISystem.mapQueries_withPools_nil (system : ISystem P) :
    system.mapQueries (Query.withPools []) = system :=
  ISystem.mapQueries_eq_self_iff.mpr fun query _ => query.withPools_nil

theorem ISystem.mapQueries_withPools_append (pools pools' : List (IArchetypePool P))
    (system : ISystem P) : (system.mapQueries (Query.withPools pools)).mapQueries
      (Query.withPools pools') = system.mapQueries (Query.withPools (pools ++ pools')) := by
  rw [ISystem.mapQueries_mapQueries]
  congr 1
  funext query
  exact (query.withPools_append pools pools').symm

/-- What a call has offered to one system. -/
theorem Call.poolsFor_offers (c : Call S P) (s : S) (hnodup : m.registered.Nodup)
    (hinvolved : c.involved.Nodup) (hnew : ∀ s ∈ c.involved, s ∉ m.registered) :
    (s ∈ m.registered → Systems.poolsFor s (c.offers m) = c.pools) ∧
      (s ∈ c.involved → Systems.poolsFor s (c.offers m) = m.entityPools) ∧
      (s ∉ m.registered → s ∉ c.involved → Systems.poolsFor s (c.offers m) = []) := by
  have hpool : ∀ pool, Systems.poolsFor s ((Call.entityPool pool).offers m) =
      if s ∈ m.registered then [pool] else [] := by
    intro pool
    have h := Systems.poolsFor_rounds hnodup s [pool]
    simpa [Systems.rounds, Call.offers] using h
  have hrounds := Systems.poolsFor_rounds hinvolved s m.entityPools
  cases c with
  | entityPool pool =>
    rw [hpool]
    exact ⟨fun h => if_pos h, fun h => absurd h List.not_mem_nil, fun h _ => if_neg h⟩
  | _ =>
    refine ⟨fun h => ?_, fun h => ?_, fun _ h => ?_⟩
    · exact hrounds.trans (if_neg fun hmem => hnew s hmem h)
    · exact hrounds.trans (if_pos h)
    · exact hrounds.trans (if_neg h)

/-- What a system has taken after a call, if it is new or had taken every pool. -/
theorem Call.systems_run (c : Call S P) (hnodup : m.registered.Nodup)
    (hinvolved : c.involved.Nodup) (hnew : ∀ s ∈ c.involved, s ∉ m.registered) {s : S}
    (hs : s ∈ c.involved ∨ s ∈ m.registered) (hfresh : s ∈ c.involved → m.systems s = start s)
    (hregistered : s ∈ m.registered →
      m.systems s = (start s).mapQueries (Query.withPools m.entityPools)) :
    (c.run m).2.systems s =
      (start s).mapQueries (Query.withPools (c.run m).2.entityPools) := by
  have heffect := c.effect_of_run m
  obtain ⟨hold, hoffered, -⟩ := c.poolsFor_offers s hnodup hinvolved hnew
  rw [heffect.systems, Systems.offer_apply, heffect.entityPools]
  rcases hs with hs | hs
  · -- a pool is only registered by a call that involves no system
    have hnone : c.pools = [] := by
      cases c with
      | entityPool => cases hs
      | _ => rfl
    rw [hoffered hs, hfresh hs, hnone, List.append_nil]
  · rw [hold hs, hregistered hs, ISystem.mapQueries_withPools_append]

theorem RegistrationInv.run (h : RegistrationInv start m) {c : Call S P} (hc : c.Distinct m)
    (hrun : (c.run m).1 = true) : RegistrationInv start (c.run m).2 := by
  obtain ⟨hpools, hinvolved, hnew⟩ := hc
  have heffect := c.effect_of_run m
  have hperm := heffect.succeeded hrun
  refine ⟨?_, hperm.nodup_iff.mpr (hinvolved.append h.nodup fun s => hnew s), fun s hs => ?_,
    fun s hs => ?_⟩
  · rw [heffect.entityPools, List.map_append]
    refine h.pools.append ?_ ?_
    · cases c with
      | entityPool pool => exact List.nodup_singleton _
      | _ => exact List.nodup_nil
    · intro ptr hptr hnew
      obtain ⟨pool, hpool, rfl⟩ := List.mem_map.mp hnew
      exact hpools pool hpool hptr
  · exact c.systems_run h.nodup hinvolved hnew (List.mem_append.mp (hperm.mem_iff.mp hs))
      (fun hs => h.others s (hnew s hs)) (h.registered s)
  · rw [hperm.mem_iff, List.mem_append, not_or] at hs
    have hoffers := (c.poolsFor_offers s h.nodup hinvolved hnew).2.2 hs.2 hs.1
    rw [heffect.systems, Systems.offer_apply, hoffers, h.others s hs.2,
      ISystem.mapQueries_withPools_nil]

omit [DecidableEq S] in
theorem registrationInv_new (start : Systems S P) : RegistrationInv start (.new start) where
  pools := List.nodup_nil
  nodup := List.nodup_nil
  registered _ hs := absurd hs List.not_mem_nil
  others _ _ := rfl

/-- The same, and what is registered is what was passed to the calls: the pools in their order, and
the systems, wherever the trees have them. -/
structure RegisteredBy (start : Systems S P) (calls : List (Call S P)) (m : AEntityManager S P) :
    Prop extends RegistrationInv start m where
  entityPools : m.entityPools = calls.flatMap Call.pools
  systems : m.registered.Perm (calls.flatMap Call.involved)

omit [DecidableEq S] in
theorem registeredBy_new (start : Systems S P) : RegisteredBy start [] (.new start) where
  toRegistrationInv := registrationInv_new start
  entityPools := rfl
  systems := List.Perm.refl _

omit [DecidableEq S] in
/-- What was not passed to a call before is not registered. -/
theorem RegisteredBy.distinct {calls : List (Call S P)} {c : Call S P}
    (h : RegisteredBy start calls m)
    (hpools : (((calls ++ [c]).flatMap Call.pools).map (·.ptr)).Nodup)
    (hsystems : ((calls ++ [c]).flatMap Call.involved).Nodup) : c.Distinct m := by
  rw [List.flatMap_append, List.flatMap_singleton, List.map_append] at hpools
  rw [List.flatMap_append, List.flatMap_singleton] at hsystems
  refine ⟨?_, (List.nodup_append'.mp hsystems).2.1, ?_⟩
  · intro pool hpool hmem
    rw [h.entityPools] at hmem
    exact (List.nodup_append'.mp hpools).2.2 hmem (List.mem_map_of_mem hpool)
  · intro s hs hmem
    exact (List.nodup_append'.mp hsystems).2.2 (h.systems.mem_iff.mp hmem) hs

/-- One more call. -/
theorem RegisteredBy.step {calls : List (Call S P)} {c : Call S P} {m' : AEntityManager S P}
    (h : RegisteredBy start calls m)
    (hpools : (((calls ++ [c]).flatMap Call.pools).map (·.ptr)).Nodup)
    (hsystems : ((calls ++ [c]).flatMap Call.involved).Nodup)
    (hstep : (registration S P).step m c = some m') : RegisteredBy start (calls ++ [c]) m' := by
  simp only [registration] at hstep
  split at hstep
  next hrun =>
    cases hstep
    have heffect := c.effect_of_run m
    refine ⟨h.run (h.distinct hpools hsystems) hrun, ?_, ?_⟩
    · rw [heffect.entityPools, h.entityPools, List.flatMap_append, List.flatMap_singleton]
    · rw [List.flatMap_append, List.flatMap_singleton]
      exact ((heffect.succeeded hrun).trans (h.systems.append_left _)).trans List.perm_append_comm
  next => cases hstep

/-- All of them, one after the other. -/
theorem RegisteredBy.exec {m' : AEntityManager S P} :
    ∀ {later : List (Call S P)} {calls : List (Call S P)} {m : AEntityManager S P},
      RegisteredBy start calls m →
      (((calls ++ later).flatMap Call.pools).map (·.ptr)).Nodup →
      ((calls ++ later).flatMap Call.involved).Nodup →
      (registration S P).exec Machine.Any m later = some m' → RegisteredBy start (calls ++ later) m'
  | [], calls, m, h, _, _, hexec => by
    cases hexec
    rw [List.append_nil]
    exact h
  | c :: later, calls, m, h, hpools, hsystems, hexec => by
    have hsplit : calls ++ c :: later = calls ++ [c] ++ later := by simp
    rw [hsplit] at hpools hsystems ⊢
    have hany : Machine.Any m c := trivial
    rw [Machine.exec, if_pos hany] at hexec
    obtain ⟨m₁, hstep, hrest⟩ := Option.bind_eq_some_iff.mp hexec
    have hpools' := hpools
    rw [List.flatMap_append, List.map_append] at hpools'
    have hsystems' := hsystems
    rw [List.flatMap_append] at hsystems'
    exact RegisteredBy.exec (h.step hpools'.of_append_left hsystems'.of_append_left hstep) hpools
      hsystems hrest

/-- **Registration order does not matter**: after any calls that all answer true, with pairwise
distinct pools and systems, the manager has the pools of the calls in their order and the systems of
the calls, and the queries of every one of these systems have taken exactly the pools of the calls
that have all their components, each once and in their order. No other system has taken any. -/
theorem registered_queries_exact (hstart : start.Fresh) (calls : List (Call S P))
    (hpools : ((calls.flatMap Call.pools).map (·.ptr)).Nodup)
    (hsystems : (calls.flatMap Call.involved).Nodup)
    (hcalls : (registration S P).exec Machine.Any (.new start) calls = some m) :
    m.entityPools = calls.flatMap Call.pools ∧
      m.registered.Perm (calls.flatMap Call.involved) ∧
      (∀ s ∈ calls.flatMap Call.involved, (m.systems s).queries =
        (start s).queries.map fun query => { query with componentPoolsArrays :=
          ((calls.flatMap Call.pools).filter (query.Matches ·)).map query.componentPoolsArray }) ∧
      ∀ s ∉ calls.flatMap Call.involved, m.systems s = start s := by
  have h : RegisteredBy start calls m :=
    RegisteredBy.exec (registeredBy_new start) hpools hsystems hcalls
  refine ⟨h.entityPools, h.systems, ?_, ?_⟩
  · intro s hs
    rw [h.registered s (h.systems.mem_iff.mpr hs), ISystem.queries_mapQueries, h.entityPools]
    refine List.map_congr_left fun query hquery => ?_
    have hempty : query.componentPoolsArrays = [] := by
      rw [hstart s query hquery]
      rfl
    rw [Query.withPools, hempty, List.nil_append]
  · intro s hs
    exact h.others s fun hmem => hs (h.systems.mem_iff.mp hmem)

/-! ### Two pools, two systems -/

/-- A pool of positions, and one of positions and timers. -/
def placedPool : IArchetypePool Nat := ⟨1, ["EntityStatus", "ChunkPos", "Position"], by decide⟩
/-- A pool with one component more. -/
def timedPool : IArchetypePool Nat :=
  ⟨2, ["EntityStatus", "ChunkPos", "Position", "Timer"], by decide⟩

/-- A system over positions and one over timers and positions. -/
def twoSystems : Systems Bool Nat
  | false => .mono (.new ["Position"])
  | true => .mono (.new ["Timer", "Position"])

theorem fresh_twoSystems : twoSystems.Fresh := by
  intro s query hquery
  cases s with
  | false =>
    cases List.mem_singleton.mp hquery
    rfl
  | true =>
    cases List.mem_singleton.mp hquery
    rfl

/-- One system before both pools, in the fixed tree, and one between them, in a node. -/
def interleaved : List (Call Bool Nat) :=
  [.fixedSystem false FIXED_ROOT_SYS_GROUP false, .entityPool placedPool,
    .systemNode (.node true "TIMERS" [true] [] []) ROOT_SYS_GROUP false true,
    .entityPool timedPool]

theorem registered_queries_exact_interleaved : ∃ m : AEntityManager Bool Nat,
    m.entityPools = [placedPool, timedPool] ∧ m.registered.Perm [false, true] ∧
      ∀ s, (m.systems s).queries = (twoSystems s).queries.map fun query =>
        { query with componentPoolsArrays := ([placedPool, timedPool].filter
          (query.Matches ·)).map query.componentPoolsArray } := by
  have hexec : ((registration Bool Nat).exec Machine.Any (.new twoSystems) interleaved).isSome =
      true := by
    decide +kernel
  obtain ⟨m, hm⟩ := Option.isSome_iff_exists.mp hexec
  obtain ⟨hpools, hregistered, hqueries, -⟩ :=
    registered_queries_exact fresh_twoSystems interleaved (by decide) (by decide) hm
  refine ⟨m, hpools, hregistered, fun s => hqueries s ?_⟩
  cases s <;> decide

/-! ## A failed call -/

/-- What a call that answers false has done: offers. -/
theorem Call.run_of_false {c : Call S P} (h : (c.run m).1 = false) :
    (c.run m).2 =
      { m with systems := m.systems.offer (Systems.rounds m.entityPools c.involved) } := by
  have heffect := c.effect_of_run m
  obtain ⟨hpools, htree, hfixed⟩ := heffect.failed h
  have hoffers : c.offers m = Systems.rounds m.entityPools c.involved := by
    cases c with
    | entityPool => cases hpools
    | _ => rfl
  have hsystems := heffect.systems
  have hentityPools := heffect.entityPools
  rw [hpools, List.append_nil] at hentityPools
  rw [hoffers] at hsystems
  generalize (c.run m).2 = m' at *
  cases m'
  cases hentityPools
  cases htree
  cases hfixed
  cases hsystems
  rfl

/-- **A failed call leaves no trace exactly if it had nothing to offer**: the state after a call
that answers false is the state before it if and only if no registered pool has all the components
of a query of a system the call involves. -/
theorem failed_registration_iff (m : AEntityManager S P) (c : Call S P)
    (h : (c.run m).1 = false) : (c.run m).2 = m ↔
      ∀ s ∈ c.involved, ∀ query ∈ (m.systems s).queries, ∀ pool ∈ m.entityPools,
        ¬ query.Matches pool := by
  rw [Call.run_of_false h]
  have heta : { m with systems := m.systems.offer (Systems.rounds m.entityPools c.involved) } = m ↔
      m.systems.offer (Systems.rounds m.entityPools c.involved) = m.systems := by
    constructor
    · intro heq
      exact congrArg AEntityManager.systems heq
    · intro heq
      rw [heq]
  rw [heta, Systems.offer_eq_self_iff]
  constructor
  · intro hall s hs query hquery pool hpool
    refine hall (pool, s) ?_ query hquery
    exact List.mem_flatMap.mpr ⟨pool, hpool, List.mem_map.mpr ⟨s, hs, rfl⟩⟩
  · intro hall e he query hquery
    obtain ⟨pool, hpool, he⟩ := List.mem_flatMap.mp he
    obtain ⟨s, hs, rfl⟩ := List.mem_map.mp he
    exact hall s hs query hquery pool hpool

/-- What a retry adds: the systems of a failed call are offered the same pools once more. -/
theorem Call.retry_offers {c c' : Call S P} (h : (c.run m).1 = false)
    (hsame : c'.involved = c.involved) (hpools : c'.pools = []) (hnodup : c.involved.Nodup) :
    ∀ s ∈ c.involved, (c'.run (c.run m).2).2.systems s =
      (m.systems s).mapQueries (Query.withPools (m.entityPools ++ m.entityPools)) := by
  intro s hs
  have hoffers : c'.offers (c.run m).2 = Systems.rounds m.entityPools c.involved := by
    rw [Call.run_of_false h, ← hsame]
    cases c' with
    | entityPool => cases hpools
    | _ => rfl
  have hfor := (Systems.poolsFor_rounds hnodup s m.entityPools).trans (if_pos hs)
  rw [(c'.effect_of_run _).systems, hoffers, Systems.offer_apply, hfor, Call.run_of_false h]
  show (m.systems.offer _ s).mapQueries _ = _
  rw [Systems.offer_apply, hfor, ISystem.mapQueries_withPools_append]

end Calls

/-- The manager with the pool of positions. -/
def withPlaced : AEntityManager Bool Nat :=
  (AEntityManager.registerEntityPool (.new twoSystems) placedPool).2

/-- A system that takes none of the pools may be registered wrongly without a trace. -/
theorem failed_registration_unmatched :
    (Call.run withPlaced (.system true "PHYSICS" false)).2 = withPlaced := by
  refine (failed_registration_iff withPlaced (.system true "PHYSICS" false) (by decide +kernel)).mpr
    ?_
  intro s hs query hquery pool hpool
  cases List.mem_singleton.mp hs
  cases List.mem_singleton.mp hquery
  cases List.mem_singleton.mp hpool
  decide +kernel

/-- One that takes the pool keeps it when the group is not found. -/
theorem not_failed_registration_traceless :
    ¬ ∀ (m : AEntityManager Bool Nat) (c : Call Bool Nat), (c.run m).1 = false →
      (c.run m).2 = m := by
  intro hall
  have hsame := hall withPlaced (.system false "PHYSICS" false) (by decide +kernel)
  have hqueries := congrArg (fun m => (m.systems false).queries) hsame
  exact absurd hqueries (by decide +kernel)

end ProjectE.Ecs
