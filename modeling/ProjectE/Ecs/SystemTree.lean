import Mathlib.Data.List.Perm.Basic

/-!
# The tree of systems

`SystemTreeNode` holds pointers to systems, before and after its children. A system, a group or a
whole node is added by looking for the target group: at the node itself, then in the children from
the first to the last, the first that takes it ending the search. The three adders are one search
(`addFirst`) with a different thing to do at the target.

`systems` lists the pointers in the order in which a pool is offered to them. What an adder that
answers true does to that list is one insertion (`Inserts`); one that answers false does nothing.
The start callback of a node is the user's and is not here.
-/

namespace ProjectE.Ecs

/-- `S::SystemTreeNode`: a group with the systems that run before its children and those that run
after them. A node without callbacks; `CallbackNode` has them. -/
inductive SystemTreeNode (S : Type) where
  | node (shouldRun : Bool) (group : String) (startSystems : List S)
      (children : List (SystemTreeNode S)) (endSystems : List S)

/-- A `SystemTree` is its root: its methods are the root's. -/
abbrev SystemTree (S : Type) := SystemTreeNode S

namespace SystemTreeNode

variable {S : Type}

/-- `SystemTreeNode(group)`: an empty node, which runs. -/
def new (group : String) : SystemTreeNode S := .node true group [] [] []

/-- `getGroup`: groups need not be unique in a tree, so the adders look for the first node of a
group. -/
def getGroup : SystemTreeNode S → String
  | .node _ group _ _ _ => group

mutual

/-- The systems in the order `registerEntityPool` visits them. -/
def systems : SystemTreeNode S → List S
  | .node _ _ startSystems children endSystems =>
    startSystems ++ (childrenSystems children ++ endSystems)

/-- The systems of the children, from the first child to the last. -/
def childrenSystems : List (SystemTreeNode S) → List S
  | [] => []
  | child :: children => systems child ++ childrenSystems children

end

mutual

/-- The systems `runNode` runs, in order. -/
def runNode : SystemTreeNode S → List S
  | .node shouldRun _ startSystems children endSystems =>
    if shouldRun then startSystems ++ (runChildren children ++ endSystems) else []

/-- The loop of `runNode` over the children. -/
def runChildren : List (SystemTreeNode S) → List S
  | [] => []
  | child :: children => runNode child ++ runChildren children

end

mutual

/-- The search of the adders: `here` is what is done at a node, if it is the target. -/
def addFirst (here : SystemTreeNode S → Option (SystemTreeNode S)) :
    SystemTreeNode S → Bool × SystemTreeNode S
  | .node shouldRun group startSystems children endSystems =>
    match here (.node shouldRun group startSystems children endSystems) with
    | some changed => (true, changed)
    | none =>
      let (added, children) := addFirstChild here children
      (added, .node shouldRun group startSystems children endSystems)

/-- The loop over the children. -/
def addFirstChild (here : SystemTreeNode S → Option (SystemTreeNode S)) :
    List (SystemTreeNode S) → Bool × List (SystemTreeNode S)
  | [] => (false, [])
  | child :: children =>
    match addFirst here child with
    | (true, child) => (true, child :: children)
    | (false, child) =>
      let (added, children) := addFirstChild here children
      (added, child :: children)

end

/-- The loop of the neighbours: the first child of the target group gets one before or after it. -/
def addBeside (node : SystemTreeNode S) (targetGroup : String) (addBefore : Bool) :
    List (SystemTreeNode S) → Bool × List (SystemTreeNode S)
  | [] => (false, [])
  | child :: children =>
    if child.getGroup ≠ targetGroup then
      let (added, children) := addBeside node targetGroup addBefore children
      (added, child :: children)
    else if addBefore then (true, node :: child :: children)
    else (true, child :: node :: children)

/-- `addSystem`: the system goes to the end of the start systems of the first node of the group, or
of its end systems. The answer is whether there is such a node. -/
def addSystem (t : SystemTreeNode S) (system : S) (group : String) (atStart : Bool) :
    Bool × SystemTreeNode S :=
  addFirst (fun
    | .node shouldRun group' startSystems children endSystems =>
      if group = group' then
        if atStart then some (.node shouldRun group' (startSystems ++ [system]) children endSystems)
        else some (.node shouldRun group' startSystems children (endSystems ++ [system]))
      else none) t

/-- `addSystemTreeNode`: inside the first node of the target group, before its children or after
them, or next to a child of this very node, in which case no deeper node is looked at. -/
def addSystemTreeNode (t node : SystemTreeNode S) (targetGroup : String)
    (addBefore addInside : Bool) : Bool × SystemTreeNode S :=
  if addInside then
    addFirst (fun
      | .node shouldRun group startSystems children endSystems =>
        if targetGroup = group then
          if addBefore then some (.node shouldRun group startSystems (node :: children) endSystems)
          else some (.node shouldRun group startSystems (children ++ [node]) endSystems)
        else none) t
  else
    match t with
    | .node shouldRun group startSystems children endSystems =>
      let (added, children) := addBeside node targetGroup addBefore children
      (added, .node shouldRun group startSystems children endSystems)

/-- The text is that of `addSystemTreeNode`, with a new node of the group. -/
def addSystemGroup (t : SystemTreeNode S) (targetGroup newGroup : String)
    (addBefore addInside : Bool) : Bool × SystemTreeNode S :=
  t.addSystemTreeNode (new newGroup) targetGroup addBefore addInside

/-! ## A failed search -/

mutual

/-- A search that finds no target leaves the tree as it was. -/
theorem addFirst_false {here : SystemTreeNode S → Option (SystemTreeNode S)} :
    ∀ {t : SystemTreeNode S}, (addFirst here t).1 = false → (addFirst here t).2 = t
  | .node shouldRun group startSystems children endSystems, h => by
    simp only [addFirst] at h ⊢
    split at h
    · cases h
    · exact congrArg (node shouldRun group startSystems · endSystems) (addFirstChild_false h)

/-- And so does the loop over the children. -/
theorem addFirstChild_false {here : SystemTreeNode S → Option (SystemTreeNode S)} :
    ∀ {ts : List (SystemTreeNode S)}, (addFirstChild here ts).1 = false →
      (addFirstChild here ts).2 = ts
  | [], _ => rfl
  | child :: children, h => by
    have ih : (addFirst here child).1 = false → (addFirst here child).2 = child := addFirst_false
    simp only [addFirstChild] at h ⊢
    split at h
    next => cases h
    next child' heq =>
      rw [heq] at ih
      exact congrArg₂ List.cons (ih rfl) (addFirstChild_false h)

end

/-- The loop of the neighbours changes nothing where no child is of the group. -/
theorem addBeside_false {node : SystemTreeNode S} {targetGroup : String} {addBefore : Bool} :
    ∀ {ts : List (SystemTreeNode S)}, (addBeside node targetGroup addBefore ts).1 = false →
      (addBeside node targetGroup addBefore ts).2 = ts
  | [], _ => rfl
  | child :: children, h => by
    unfold addBeside at h ⊢
    by_cases hgroup : child.getGroup ≠ targetGroup
    · rw [if_pos hgroup] at h ⊢
      exact congrArg (child :: ·) (addBeside_false h)
    · rw [if_neg hgroup] at h
      split at h
      · cases h
      · cases h

/-- A call of `addSystem` that answers false changes nothing. -/
theorem addSystem_false {system : S} {group : String} {atStart : Bool} {t : SystemTreeNode S}
    (h : (t.addSystem system group atStart).1 = false) : (t.addSystem system group atStart).2 = t :=
  addFirst_false h

/-- A call of `addSystemTreeNode` that answers false changes nothing. -/
theorem addSystemTreeNode_false {t node : SystemTreeNode S} {targetGroup : String}
    {addBefore addInside : Bool}
    (h : (t.addSystemTreeNode node targetGroup addBefore addInside).1 = false) :
    (t.addSystemTreeNode node targetGroup addBefore addInside).2 = t := by
  unfold addSystemTreeNode at h ⊢
  cases addInside with
  | true => exact addFirst_false h
  | false =>
    cases t with
    | node shouldRun group startSystems children endSystems =>
      exact congrArg (SystemTreeNode.node shouldRun group startSystems · endSystems)
        (addBeside_false h)

/-! ## A successful one -/

/-- `ys` is `xs` with `new` put in at one place. -/
def Inserts (new xs ys : List S) : Prop := ∃ pre post, xs = pre ++ post ∧ ys = pre ++ (new ++ post)

/-- What was inserted is there with all that was there before, each as often as it was. -/
theorem Inserts.perm {new xs ys : List S} (h : Inserts new xs ys) : ys.Perm (new ++ xs) := by
  obtain ⟨pre, post, rfl, rfl⟩ := h
  rw [← List.append_assoc, ← List.append_assoc]
  exact List.perm_append_comm.append_right post

/-- An insertion behind other systems. -/
theorem Inserts.append_left {new xs ys : List S} (h : Inserts new xs ys) (zs : List S) :
    Inserts new (zs ++ xs) (zs ++ ys) := by
  obtain ⟨pre, post, rfl, rfl⟩ := h
  exact ⟨zs ++ pre, post, (List.append_assoc _ _ _).symm, (List.append_assoc _ _ _).symm⟩

/-- An insertion before other systems. -/
theorem Inserts.append_right {new xs ys : List S} (h : Inserts new xs ys) (zs : List S) :
    Inserts new (xs ++ zs) (ys ++ zs) := by
  obtain ⟨pre, post, rfl, rfl⟩ := h
  refine ⟨pre, post ++ zs, List.append_assoc _ _ _, ?_⟩
  simp only [List.append_assoc]

/-- The systems of two groups of children stand one after the other. -/
theorem childrenSystems_append : ∀ ts us : List (SystemTreeNode S),
    childrenSystems (ts ++ us) = childrenSystems ts ++ childrenSystems us
  | [], _ => rfl
  | child :: children, us => by
    simp only [List.cons_append, childrenSystems, childrenSystems_append children us,
      List.append_assoc]

mutual

/-- A search that succeeds inserts in the whole tree what is inserted at the target: the induction
is on the tree, and the systems around the subtree are the context. -/
theorem inserts_addFirst {here : SystemTreeNode S → Option (SystemTreeNode S)} {new : List S}
    (hhere : ∀ t changed, here t = some changed → Inserts new t.systems changed.systems) :
    ∀ {t : SystemTreeNode S}, (addFirst here t).1 = true →
      Inserts new t.systems (addFirst here t).2.systems
  | .node shouldRun group startSystems children endSystems, h => by
    simp only [addFirst] at h ⊢
    split at h
    next changed heq => exact hhere _ _ heq
    next =>
      simp only [systems]
      exact ((inserts_addFirstChild hhere h).append_right endSystems).append_left startSystems

/-- The same for the loop over the children. -/
theorem inserts_addFirstChild {here : SystemTreeNode S → Option (SystemTreeNode S)} {new : List S}
    (hhere : ∀ t changed, here t = some changed → Inserts new t.systems changed.systems) :
    ∀ {ts : List (SystemTreeNode S)}, (addFirstChild here ts).1 = true →
      Inserts new (childrenSystems ts) (childrenSystems (addFirstChild here ts).2)
  | child :: children, h => by
    have ih := inserts_addFirst hhere (t := child)
    have hkept : (addFirst here child).1 = false → (addFirst here child).2 = child :=
      addFirst_false
    simp only [addFirstChild] at h ⊢
    split at h
    next child' heq =>
      rw [heq] at ih
      exact (ih rfl).append_right (childrenSystems children)
    next child' heq =>
      rw [heq] at hkept
      cases hkept rfl
      exact (inserts_addFirstChild hhere h).append_left (systems child')

end

/-- A neighbour's systems come in one piece. -/
theorem inserts_addBeside {node : SystemTreeNode S} {targetGroup : String} {addBefore : Bool} :
    ∀ {ts : List (SystemTreeNode S)}, (addBeside node targetGroup addBefore ts).1 = true →
      Inserts node.systems (childrenSystems ts)
        (childrenSystems (addBeside node targetGroup addBefore ts).2)
  | child :: children, h => by
    unfold addBeside at h ⊢
    by_cases hgroup : child.getGroup ≠ targetGroup
    · rw [if_pos hgroup] at h ⊢
      exact (inserts_addBeside h).append_left child.systems
    · rw [if_neg hgroup]
      split
      · exact ⟨[], _, rfl, rfl⟩
      · exact ⟨child.systems, childrenSystems children, rfl, rfl⟩

/-- A call of `addSystem` that answers true inserts the one system. -/
theorem inserts_addSystem {system : S} {group : String} {atStart : Bool} {t : SystemTreeNode S}
    (h : (t.addSystem system group atStart).1 = true) :
    Inserts [system] t.systems (t.addSystem system group atStart).2.systems := by
  refine inserts_addFirst ?_ h
  rintro ⟨shouldRun, group', startSystems, children, endSystems⟩ changed hchanged
  simp only at hchanged
  split at hchanged
  · split at hchanged
    · cases hchanged
      refine ⟨startSystems, childrenSystems children ++ endSystems, rfl, ?_⟩
      exact List.append_assoc _ _ _
    · cases hchanged
      refine ⟨startSystems ++ (childrenSystems children ++ endSystems), [], ?_, ?_⟩
      · exact (List.append_nil _).symm
      · simp only [systems, List.append_assoc, List.append_nil]
  · cases hchanged

/-- A call of `addSystemTreeNode` that answers true inserts the systems of the node in one piece,
wherever it goes. -/
theorem inserts_addSystemTreeNode {t node : SystemTreeNode S} {targetGroup : String}
    {addBefore addInside : Bool}
    (h : (t.addSystemTreeNode node targetGroup addBefore addInside).1 = true) :
    Inserts node.systems t.systems
      (t.addSystemTreeNode node targetGroup addBefore addInside).2.systems := by
  unfold addSystemTreeNode at h ⊢
  cases addInside with
  | true =>
    refine inserts_addFirst ?_ h
    rintro ⟨shouldRun, group', startSystems, children, endSystems⟩ changed hchanged
    simp only at hchanged
    split at hchanged
    · split at hchanged
      · cases hchanged
        refine ⟨startSystems, childrenSystems children ++ endSystems, rfl, ?_⟩
        simp only [systems, childrenSystems, List.append_assoc]
      · cases hchanged
        refine ⟨startSystems ++ childrenSystems children, endSystems, ?_, ?_⟩
        · simp only [systems, List.append_assoc]
        · simp only [systems, childrenSystems_append, childrenSystems, List.append_assoc,
            List.nil_append]
    · cases hchanged
  | false =>
    cases t with
    | node shouldRun group startSystems children endSystems =>
      exact ((inserts_addBeside h).append_right endSystems).append_left startSystems

end SystemTreeNode

end ProjectE.Ecs
