import ProjectE.Ecs.SystemTree

/-!
# Start callbacks

`runNode` calls the start callback of a node before it reads `shouldRun`. A callback looks at some
input and changes some state that callbacks share, and whether its node is to run; that of a node
whose parent does not run is not called. What `shouldRun` was set to stays for the next run.

What runs is what `SystemTreeNode.runNode` runs of the tree that the callbacks leave (`run_eq`), and
a tree runs with a part of it that has callbacks (`Hosts`) as that part does, between what comes
before and what comes after it, run after run.
-/

namespace ProjectE.Ecs

/-- `S::SystemTreeNode` with its start callback. -/
inductive CallbackNode (S I M : Type) where
  | node (startCallback : Option (I → M → Bool → M × Bool)) (shouldRun : Bool) (group : String)
      (startSystems : List S) (children : List (CallbackNode S I M)) (endSystems : List S)

namespace CallbackNode

variable {S I M : Type}

mutual

/-- The node without the callbacks. -/
def forget : CallbackNode S I M → SystemTreeNode S
  | .node _ shouldRun group startSystems children endSystems =>
    .node shouldRun group startSystems (forgetChildren children) endSystems

/-- The loop over the children. -/
def forgetChildren : List (CallbackNode S I M) → List (SystemTreeNode S)
  | [] => []
  | child :: children => forget child :: forgetChildren children

end

mutual

/-- `runNode(tree)`: the systems it runs, and what it leaves of the nodes and of the state. -/
def runNode (input : I) : CallbackNode S I M → M → List S × CallbackNode S I M × M
  | .node startCallback shouldRun group startSystems children endSystems, state =>
    let (state, shouldRun) := match startCallback with
      | none => (state, shouldRun)
      | some callback => callback input state shouldRun
    if shouldRun then
      let (systems, children, state) := runChildren input children state
      (startSystems ++ (systems ++ endSystems),
        .node startCallback shouldRun group startSystems children endSystems, state)
    else ([], .node startCallback shouldRun group startSystems children endSystems, state)

/-- The children are run in order; each callback sees the state the last one left. -/
def runChildren (input : I) :
    List (CallbackNode S I M) → M → List S × List (CallbackNode S I M) × M
  | [], state => ([], [], state)
  | child :: children, state =>
    let (systems, child, state) := runNode input child state
    let (more, children, state) := runChildren input children state
    (systems ++ more, child :: children, state)

end

/-- The runs of the tree, one for each input. -/
def runAll : List I → CallbackNode S I M → M → List (List S)
  | [], _, _ => []
  | input :: inputs, t, state =>
    let (systems, t, state) := runNode input t state
    systems :: runAll inputs t state

mutual

/-- No node has a callback. -/
def Plain : CallbackNode S I M → Prop
  | .node startCallback _ _ _ children _ => startCallback = none ∧ PlainChildren children

/-- Nor do the nodes below the children. -/
def PlainChildren : List (CallbackNode S I M) → Prop
  | [] => True
  | child :: children => Plain child ∧ PlainChildren children

end

/-! ## What runs -/

mutual

/-- What runs is what is run of the tree that the callbacks leave. -/
theorem run_eq (input : I) : ∀ (t : CallbackNode S I M) (state : M),
    (t.runNode input state).1 = (t.runNode input state).2.1.forget.runNode
  | .node startCallback shouldRun group startSystems children endSystems, state => by
    simp only [runNode]
    generalize (match startCallback with
      | none => (state, shouldRun)
      | some callback => callback input state shouldRun) = called
    obtain ⟨state, shouldRun⟩ := called
    cases shouldRun with
    | false => rfl
    | true =>
      simp only [if_true, forget, SystemTreeNode.runNode]
      rw [runChildren_eq input children state]

theorem runChildren_eq (input : I) : ∀ (ts : List (CallbackNode S I M)) (state : M),
    (runChildren input ts state).1 =
      SystemTreeNode.runChildren (forgetChildren (runChildren input ts state).2.1)
  | [], _ => rfl
  | child :: children, state => by
    simp only [runChildren, forgetChildren, SystemTreeNode.runChildren]
    rw [run_eq input child state, runChildren_eq input children]

end

mutual

/-- Callbacks change no list of systems. -/
theorem systems_runNode (input : I) : ∀ (t : CallbackNode S I M) (state : M),
    (t.runNode input state).2.1.forget.systems = t.forget.systems
  | .node startCallback shouldRun group startSystems children endSystems, state => by
    simp only [runNode]
    generalize (match startCallback with
      | none => (state, shouldRun)
      | some callback => callback input state shouldRun) = called
    obtain ⟨state, shouldRun⟩ := called
    cases shouldRun with
    | false => rfl
    | true =>
      simp only [if_true, forget, SystemTreeNode.systems]
      rw [systems_runChildren input children state]

theorem systems_runChildren (input : I) : ∀ (ts : List (CallbackNode S I M)) (state : M),
    SystemTreeNode.childrenSystems (forgetChildren (runChildren input ts state).2.1) =
      SystemTreeNode.childrenSystems (forgetChildren ts)
  | [], _ => rfl
  | child :: children, state => by
    simp only [runChildren, forgetChildren, SystemTreeNode.childrenSystems]
    rw [systems_runNode input child state, systems_runChildren input children]

end

mutual

/-- Without callbacks a tree runs as it is. -/
theorem Plain.runNode_eq (input : I) : ∀ {t : CallbackNode S I M}, t.Plain → ∀ state : M,
    t.runNode input state = (t.forget.runNode, t, state)
  | .node none shouldRun group startSystems children endSystems, h, state => by
    simp only [runNode, PlainChildren.runChildren_eq input h.2 state, forget,
      SystemTreeNode.runNode]
    cases shouldRun <;> rfl

theorem PlainChildren.runChildren_eq (input : I) : ∀ {ts : List (CallbackNode S I M)},
    PlainChildren ts → ∀ state : M,
      runChildren input ts state =
        (SystemTreeNode.runChildren (forgetChildren ts), ts, state)
  | [], _, _ => rfl
  | child :: children, h, state => by
    simp only [runChildren, Plain.runNode_eq input h.1 state,
      PlainChildren.runChildren_eq input h.2 state]
    rfl

end

/-! ## A part with callbacks -/

theorem runChildren_append (input : I) : ∀ (ts us : List (CallbackNode S I M)) (state : M),
    runChildren input (ts ++ us) state =
      let (systems, ts, state) := runChildren input ts state
      let (more, us, state) := runChildren input us state
      (systems ++ more, ts ++ us, state)
  | [], us, state => rfl
  | child :: children, us, state => by
    simp only [List.cons_append, runChildren, runChildren_append input children us,
      List.append_assoc]

/-- The first node is in the tree; the others have no callback, and those around it run. What is
run of them comes before and after it. -/
inductive Hosts (part : CallbackNode S I M) : CallbackNode S I M → List S → List S → Prop
  | here : Hosts part part [] []
  | child {t : CallbackNode S I M} {before after : List S} (group : String)
      (startSystems endSystems : List S) {ts us : List (CallbackNode S I M)} :
      PlainChildren ts → Hosts part t before after → PlainChildren us →
      Hosts part (.node none true group startSystems (ts ++ t :: us) endSystems)
        (startSystems ++ (SystemTreeNode.runChildren (forgetChildren ts) ++ before))
        (after ++ (SystemTreeNode.runChildren (forgetChildren us) ++ endSystems))

/-- The tree runs around the part, and leaves the rest of itself as it is. -/
theorem Hosts.runNode {part t : CallbackNode S I M} {before after : List S}
    (h : Hosts part t before after) (input : I) (state : M) :
    ∃ t', Hosts (part.runNode input state).2.1 t' before after ∧
      t.runNode input state = (before ++ ((part.runNode input state).1 ++ after), t',
        (part.runNode input state).2.2) := by
  induction h with
  | here => exact ⟨_, .here, by rw [List.append_nil]; rfl⟩
  | child group startSystems endSystems hts _ hus ih =>
    obtain ⟨t', ht', heq⟩ := ih
    refine ⟨_, .child group startSystems endSystems hts ht' hus, ?_⟩
    simp only [CallbackNode.runNode, if_true, runChildren_append, runChildren,
      hts.runChildren_eq input, heq, hus.runChildren_eq input, List.append_assoc]

/-- Run after run, it runs around the runs of the part. -/
theorem Hosts.runAll {part t : CallbackNode S I M} {before after : List S}
    (h : Hosts part t before after) (inputs : List I) (state : M) :
    t.runAll inputs state =
      (part.runAll inputs state).map fun systems => before ++ (systems ++ after) := by
  induction inputs generalizing part t state with
  | nil => rfl
  | cons input inputs ih =>
    obtain ⟨t', ht', heq⟩ := h.runNode input state
    simp only [CallbackNode.runAll, List.map_cons, heq]
    rw [ih ht']

end CallbackNode

end ProjectE.Ecs
