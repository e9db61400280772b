import ProjectE.Ecs.Insertion

/-!
# The order of execution

`runNode` runs the systems of a node around those of its children, each after it was given the data
of the step. In a tree all of whose nodes run, the systems before and after a place are those of
the path to it (`runBefore`, `runAfter`), and a change at one place changes the run there and
nowhere else (`AllRun.runNode_modifyAt`). So whatever is registered, the systems that were there run
in the order they did.

A start callback may change `shouldRun` before it is read; a tree all of whose nodes run is one
whose callbacks leave it as it is.
-/

namespace ProjectE.Ecs.SystemTreeNode

variable {S : Type}

/-! ## Running -/

/-- What `runNode` calls. -/
inductive RunEvent (S : Type) where
  | getRunStepData (system : S)
  | run (system : S)
deriving DecidableEq, Repr

/-- The body of the two loops over systems. -/
def runSystem (system : S) : List (RunEvent S) := [.getRunStepData system, .run system]

mutual

/-- The calls of `runNode`, in order. -/
def runEvents : SystemTreeNode S → List (RunEvent S)
  | .node shouldRun _ startSystems children endSystems =>
    if shouldRun then
      startSystems.flatMap runSystem ++ (runChildrenEvents children ++ endSystems.flatMap runSystem)
    else []

/-- The events of the children, one child after the other. -/
def runChildrenEvents : List (SystemTreeNode S) → List (RunEvent S)
  | [] => []
  | child :: children => runEvents child ++ runChildrenEvents children

end

mutual

/-- Every node may run. -/
def AllRun : SystemTreeNode S → Prop
  | .node shouldRun _ _ children _ => shouldRun = true ∧ ChildrenRun children

/-- So do all nodes below the children. -/
def ChildrenRun : List (SystemTreeNode S) → Prop
  | [] => True
  | child :: children => AllRun child ∧ ChildrenRun children

end

mutual

/-- A system is given the data of the step right before it runs. -/
theorem runEvents_eq : ∀ t : SystemTreeNode S, t.runEvents = t.runNode.flatMap runSystem
  | .node shouldRun group startSystems children endSystems => by
    rw [runEvents, runNode]
    split
    · rw [List.flatMap_append, List.flatMap_append, runChildrenEvents_eq children]
    · rfl

theorem runChildrenEvents_eq : ∀ ts : List (SystemTreeNode S),
    runChildrenEvents ts = (runChildren ts).flatMap runSystem
  | [] => rfl
  | child :: children => by
    rw [runChildrenEvents, runChildren, List.flatMap_append, runEvents_eq child,
      runChildrenEvents_eq children]

end

theorem runChildren_append : ∀ ts us : List (SystemTreeNode S),
    runChildren (ts ++ us) = runChildren ts ++ runChildren us
  | [], _ => rfl
  | child :: children, us => by
    simp only [List.cons_append, runChildren, runChildren_append children us, List.append_assoc]

theorem ChildrenRun.getElem? : ∀ {ts : List (SystemTreeNode S)} {i : Nat}
    {child : SystemTreeNode S},
    ChildrenRun ts → ts[i]? = some child → child.AllRun
  | t :: ts, 0, child, h, hget => by
    cases hget
    exact h.1
  | t :: ts, i + 1, child, h, hget => ChildrenRun.getElem? h.2 hget

/-! ## Around a place -/

/-- The node at a path. -/
def nodeAt : List Nat → SystemTreeNode S → Option (SystemTreeNode S)
  | [], t => some t
  | i :: path, .node _ _ _ children _ => children[i]?.bind (nodeAt path)

/-- The systems that run before the node at the path. -/
def runBefore : List Nat → SystemTreeNode S → List S
  | [], _ => []
  | i :: path, .node _ _ startSystems children _ =>
    startSystems ++ (runChildren (children.take i) ++
      (children[i]?.map (runBefore path)).getD [])

/-- The systems that run after it. -/
def runAfter : List Nat → SystemTreeNode S → List S
  | [], _ => []
  | i :: path, .node _ _ _ children endSystems =>
    (children[i]?.map (runAfter path)).getD [] ++
      (runChildren (children.drop (i + 1)) ++ endSystems)

mutual

theorem nodeAt_of_mem_preorder {path : List Nat} {u : SystemTreeNode S} :
    ∀ {t : SystemTreeNode S}, (path, u) ∈ t.preorder → nodeAt path t = some u
  | .node shouldRun group startSystems children endSystems, h => by
    rw [preorder] at h
    rcases List.mem_cons.mp h with heq | h
    · cases heq
      rfl
    · obtain ⟨k, p, rfl, hnode⟩ := nodeAt_of_mem_preorderChildren h
      rw [Nat.zero_add]
      exact hnode

theorem nodeAt_of_mem_preorderChildren {path : List Nat} {u : SystemTreeNode S} :
    ∀ {ts : List (SystemTreeNode S)} {i : Nat}, (path, u) ∈ preorderChildren i ts →
      ∃ k p, path = (i + k) :: p ∧ ts[k]?.bind (nodeAt p) = some u
  | child :: children, i, h => by
    rw [preorderChildren] at h
    rcases List.mem_append.mp h with h | h
    · obtain ⟨⟨p, u'⟩, hmem, heq⟩ := List.mem_map.mp h
      cases heq
      exact ⟨0, p, rfl, nodeAt_of_mem_preorder hmem⟩
    · obtain ⟨k, p, rfl, hnode⟩ := nodeAt_of_mem_preorderChildren h
      exact ⟨k + 1, p, by rw [Nat.add_assoc, Nat.add_comm 1], hnode⟩

end

/-- A change at one place changes the run there, and nowhere else. -/
theorem AllRun.runNode_modifyAt {path : List Nat} {t u : SystemTreeNode S} (h : t.AllRun)
    (hnode : nodeAt path t = some u) : u.AllRun ∧
      t.runNode = runBefore path t ++ (u.runNode ++ runAfter path t) ∧
      ∀ edit, (t.modifyAt edit path).runNode =
        runBefore path t ++ ((edit u).runNode ++ runAfter path t) := by
  induction path generalizing t with
  | nil =>
    cases hnode
    exact ⟨h, (List.append_nil _).symm, fun edit => (List.append_nil _).symm⟩
  | cons i path ih =>
    cases t with
    | node shouldRun group startSystems children endSystems =>
      obtain ⟨hrun, hchildren⟩ := h
      obtain ⟨child, hchild, hnode⟩ := Option.bind_eq_some_iff.mp hnode
      obtain ⟨hlt, hget⟩ := List.getElem?_eq_some_iff.mp hchild
      obtain ⟨hu, hbefore, hafter⟩ := ih (hchildren.getElem? hchild) hnode
      have hsplit : children = children.take i ++ child :: children.drop (i + 1) := by
        rw [← hget, ← List.drop_eq_getElem_cons hlt, List.take_append_drop]
      refine ⟨hu, ?_, fun edit => ?_⟩
      · rw [runNode, if_pos hrun]
        conv_lhs => rw [hsplit]
        simp only [runChildren_append, runChildren, hbefore, runBefore, runAfter, hchild,
          Option.map_some, Option.getD_some, List.append_assoc]
      · rw [modifyAt, List.modify_eq_take_cons_drop hlt, hget, runNode, if_pos hrun]
        simp only [runChildren_append, runChildren, hafter, runBefore, runAfter, hchild,
          Option.map_some, Option.getD_some, List.append_assoc]

/-! ## Insertions -/

theorem inserts_insertInside {u : SystemTreeNode S} (h : u.AllRun) (node : SystemTreeNode S)
    (addBefore : Bool) :
    Inserts node.runNode u.runNode (insertInside node addBefore u).runNode := by
  cases u with
  | node shouldRun group startSystems children endSystems =>
    have hrun : shouldRun = true := h.1
    simp only [insertInside, runNode, if_pos hrun]
    refine Inserts.append_left (Inserts.append_right ?_ endSystems) startSystems
    cases addBefore with
    | true => exact ⟨[], runChildren children, rfl, rfl⟩
    | false =>
      refine ⟨runChildren children, [], (List.append_nil _).symm, ?_⟩
      simp only [Bool.false_eq_true, if_false, runChildren_append, runChildren]

theorem inserts_insertIdx (node : SystemTreeNode S) : ∀ {ts : List (SystemTreeNode S)} {k : Nat},
    k ≤ ts.length → Inserts node.runNode (runChildren ts) (runChildren (ts.insertIdx k node))
  | ts, 0, _ => ⟨[], runChildren ts, rfl, by rw [List.insertIdx_zero]; rfl⟩
  | child :: children, k + 1, h => by
    rw [List.insertIdx_succ_cons, runChildren, runChildren]
    exact (inserts_insertIdx node (Nat.le_of_succ_le_succ h)).append_left child.runNode

/-- One more system, the last of the start systems or of the end systems. -/
def appendSystem (system : S) (atStart : Bool) : SystemTreeNode S → SystemTreeNode S
  | .node shouldRun group startSystems children endSystems =>
    if atStart then .node shouldRun group (startSystems ++ [system]) children endSystems
    else .node shouldRun group startSystems children (endSystems ++ [system])

theorem addSystem_eq (t : SystemTreeNode S) (system : S) (group : String) (atStart : Bool) :
    t.addSystem system group atStart =
      match t.preorder.find? fun place => place.2.getGroup = group with
      | none => (false, t)
      | some (path, _) => (true, t.modifyAt (appendSystem system atStart) path) := by
  refine @addFirst_eq S _ (fun u => u.getGroup = group) (appendSystem system atStart) ?_ t
  rintro ⟨shouldRun, group', startSystems, children, endSystems⟩
  simp only [getGroup, decide_eq_true_eq, eq_comm (a := group')]
  split
  · cases atStart with
    | true => rfl
    | false => rfl
  · rfl

theorem runNode_addSystem {t : SystemTreeNode S} (h : t.AllRun) {system : S} {group : String}
    {atStart : Bool} (hadd : (t.addSystem system group atStart).1 = true) :
    ∃ path startSystems children endSystems,
      t.preorder.find? (fun place => place.2.getGroup = group) =
        some (path, .node true group startSystems children endSystems) ∧
      t.runNode = runBefore path t ++
        ((startSystems ++ (runChildren children ++ endSystems)) ++ runAfter path t) ∧
      (t.addSystem system group atStart).2.runNode = runBefore path t ++
        ((if atStart then startSystems ++ ([system] ++ (runChildren children ++ endSystems))
          else startSystems ++ (runChildren children ++ (endSystems ++ [system]))) ++
          runAfter path t) := by
  rw [addSystem_eq] at hadd ⊢
  cases hfind : t.preorder.find? (fun place => place.2.getGroup = group) with
  | none =>
    rw [hfind] at hadd
    cases hadd
  | some place =>
    obtain ⟨path, u⟩ := place
    have hgroup : u.getGroup = group := of_decide_eq_true (List.find?_some
      (p := fun place : List Nat × SystemTreeNode S => decide (place.2.getGroup = group)) hfind)
    obtain ⟨hu, hbefore, hafter⟩ :=
      h.runNode_modifyAt (nodeAt_of_mem_preorder (List.mem_of_find?_eq_some hfind))
    cases u with
    | node shouldRun group' startSystems children endSystems =>
      cases hgroup
      obtain ⟨rfl, -⟩ := hu
      refine ⟨path, startSystems, children, endSystems, rfl, hbefore, ?_⟩
      refine (hafter _).trans ?_
      cases atStart with
      | true => simp only [appendSystem, runNode, if_true, List.append_assoc]
      | false => simp only [appendSystem, runNode, Bool.false_eq_true, if_false, if_true]

theorem inserts_runNode {t node : SystemTreeNode S} (h : t.AllRun) {targetGroup : String}
    {addBefore addInside : Bool}
    (hadd : (t.addSystemTreeNode node targetGroup addBefore addInside).1 = true) :
    Inserts node.runNode t.runNode
      (t.addSystemTreeNode node targetGroup addBefore addInside).2.runNode := by
  rw [addSystemTreeNode_eq_atFirst] at hadd ⊢
  unfold atFirst at hadd ⊢
  cases hfind : (t.searched addInside).find? (fun place => place.2.getGroup = targetGroup) with
  | none =>
    rw [hfind] at hadd
    cases hadd
  | some place =>
    obtain ⟨path, u⟩ := place
    have hmem := List.mem_of_find?_eq_some hfind
    cases addInside with
    | true =>
      obtain ⟨hu, hbefore, hafter⟩ := h.runNode_modifyAt (nodeAt_of_mem_preorder hmem)
      have hedit : (t.insertedAt node path addBefore true).runNode = runBefore path t ++
          ((insertInside node addBefore u).runNode ++ runAfter path t) := hafter _
      rw [hbefore, hedit]
      exact ((inserts_insertInside hu node addBefore).append_right _).append_left _
    | false =>
      cases t with
      | node shouldRun group startSystems children endSystems =>
        -- the place is a child of the root
        obtain ⟨⟨child, k⟩, hchild, heq⟩ := List.mem_map.mp hmem
        cases heq
        have hlt := (List.getElem?_eq_some_iff.mp (List.mem_zipIdx_iff_getElem?.mp hchild)).1
        have hle : (if addBefore then k else k + 1) ≤ children.length := by
          split <;> omega
        have hrun : shouldRun = true := h.1
        simp only [insertedAt, Bool.false_eq_true, if_false, List.dropLast_singleton, modifyAt,
          insertChild, runNode, if_pos hrun, List.getLastD_cons, List.getLastD_nil]
        exact ((inserts_insertIdx node hle).append_right endSystems).append_left startSystems

/-- **Registration never reorders execution.** Where all nodes run, a system registered runs after
the start systems or after the end systems of the first node of its group, a group registered runs
nothing, and the systems of a node registered run in one piece; whatever ran before runs in the
order it did. Every system is given the data of the step right before it runs. -/
theorem registration_keeps_order {t : SystemTreeNode S} (h : t.AllRun) :
    (∀ system group atStart, (t.addSystem system group atStart).1 = true →
      ∃ path startSystems children endSystems,
        t.preorder.find? (fun place => place.2.getGroup = group) =
          some (path, .node true group startSystems children endSystems) ∧
        t.runNode = runBefore path t ++
          ((startSystems ++ (runChildren children ++ endSystems)) ++ runAfter path t) ∧
        (t.addSystem system group atStart).2.runNode = runBefore path t ++
          ((if atStart then startSystems ++ ([system] ++ (runChildren children ++ endSystems))
            else startSystems ++ (runChildren children ++ (endSystems ++ [system]))) ++
            runAfter path t)) ∧
    (∀ targetGroup newGroup addBefore addInside,
      (t.addSystemGroup targetGroup newGroup addBefore addInside).1 = true →
      (t.addSystemGroup targetGroup newGroup addBefore addInside).2.runNode = t.runNode) ∧
    (∀ node targetGroup addBefore addInside,
      (t.addSystemTreeNode node targetGroup addBefore addInside).1 = true →
      Inserts node.runNode t.runNode
        (t.addSystemTreeNode node targetGroup addBefore addInside).2.runNode) ∧
    ∀ t' : SystemTreeNode S, t'.runEvents = t'.runNode.flatMap runSystem := by
  refine ⟨fun system group atStart hadd => runNode_addSystem h hadd,
    fun targetGroup newGroup addBefore addInside hadd => ?_,
    fun node targetGroup addBefore addInside hadd => inserts_runNode h hadd, runEvents_eq⟩
  -- a new group has no system
  obtain ⟨pre, post, hbefore, hafter⟩ := inserts_runNode h hadd
  rw [hbefore]
  exact hafter

/-- A node of one system put before the group `A`, whose systems run between those of the root. -/
theorem registration_keeps_order_beside :
    Inserts [7] [1, 2, 3, 4] ((SystemTreeNode.node true "ROOT" [1]
      [.node true "A" [2] [] [3]] [4]).addSystemTreeNode (.node true "B" [7] [] []) "A" true
        false).2.runNode :=
  (registration_keeps_order (S := Nat) (t := .node true "ROOT" [1] [.node true "A" [2] [] [3]] [4])
    ⟨rfl, ⟨rfl, trivial⟩, trivial⟩).2.2.1 (.node true "B" [7] [] []) "A" true false (by decide)

end ProjectE.Ecs.SystemTreeNode
