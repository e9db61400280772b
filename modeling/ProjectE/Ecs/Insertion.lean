import ProjectE.Ecs.SystemTree

/-!
# Where a node is inserted

A place in a tree of systems is the path to it, child after child, and `preorder` lists all places
with what is there. What a search that stops at the first target does is then one change at one
path (`addFirst_eq`), the path being the first in preorder.

The two kinds of insertion look for their target in different lists. To be put inside a group, the
whole tree is searched, the root first. To be put beside a group, only the children of the root are:
the loop of the neighbours does not go deeper, so that a group further down is found as a place to
insert into, and not as a place to insert beside.
-/

namespace ProjectE.Ecs.SystemTreeNode

variable {S : Type}

/-! ## Places -/

mutual

/-- The nodes in preorder, each with the path to it. -/
def preorder : SystemTreeNode S → List (List Nat × SystemTreeNode S)
  | .node shouldRun group startSystems children endSystems =>
    ([], .node shouldRun group startSystems children endSystems) :: preorderChildren 0 children

/-- The nodes of the children, the first child's first; `i` is the index of the first of them. -/
def preorderChildren : Nat → List (SystemTreeNode S) → List (List Nat × SystemTreeNode S)
  | _, [] => []
  | i, child :: children =>
    (preorder child).map (fun place => (i :: place.1, place.2)) ++ preorderChildren (i + 1) children

end

/-- The children of the node, each with the path to it. -/
def childPlaces : SystemTreeNode S → List (List Nat × SystemTreeNode S)
  | .node _ _ _ children _ => children.zipIdx.map fun child => ([child.2], child.1)

/-- The tree with the node at a path changed. -/
def modifyAt (edit : SystemTreeNode S → SystemTreeNode S) :
    List Nat → SystemTreeNode S → SystemTreeNode S
  | [], t => edit t
  | i :: path, .node shouldRun group startSystems children endSystems =>
    .node shouldRun group startSystems (children.modify i (modifyAt edit path)) endSystems

/-- One more child, the first or the last. -/
def insertInside (node : SystemTreeNode S) (addBefore : Bool) :
    SystemTreeNode S → SystemTreeNode S
  | .node shouldRun group startSystems children endSystems =>
    .node shouldRun group startSystems (if addBefore then node :: children else children ++ [node])
      endSystems

/-- One more child, at an index. -/
def insertChild (node : SystemTreeNode S) (index : Nat) : SystemTreeNode S → SystemTreeNode S
  | .node shouldRun group startSystems children endSystems =>
    .node shouldRun group startSystems (children.insertIdx index node) endSystems

/-- The tree with one more child of the node at the path, or beside that node. -/
def insertedAt (t node : SystemTreeNode S) (path : List Nat) (addBefore addInside : Bool) :
    SystemTreeNode S :=
  if addInside then t.modifyAt (insertInside node addBefore) path
  else
    t.modifyAt (insertChild node
      (if addBefore then path.getLastD 0 else path.getLastD 0 + 1)) path.dropLast

/-- The node is inserted at the first of the places that has the target group, if there is one. -/
def atFirst (places : List (List Nat × SystemTreeNode S)) (t node : SystemTreeNode S)
    (targetGroup : String) (addBefore addInside : Bool) : Bool × SystemTreeNode S :=
  match places.find? fun place => place.2.getGroup = targetGroup with
  | none => (false, t)
  | some (path, _) => (true, t.insertedAt node path addBefore addInside)

/-! ## A search is one change -/

section Search

variable {here : SystemTreeNode S → Option (SystemTreeNode S)} {target : SystemTreeNode S → Bool}
  {edit : SystemTreeNode S → SystemTreeNode S}

mutual

/-- The first target in preorder is changed. -/
theorem addFirst_eq (hhere : ∀ t, here t = if target t then some (edit t) else none) :
    ∀ t : SystemTreeNode S, addFirst here t =
      match t.preorder.find? fun place => target place.2 with
      | none => (false, t)
      | some (path, _) => (true, t.modifyAt edit path)
  | .node shouldRun group startSystems children endSystems => by
    have hchildren := addFirstChild_cases hhere children 0
    rw [addFirst, hhere, preorder, List.find?_cons]
    cases htarget : target (.node shouldRun group startSystems children endSystems) with
    | true => rfl
    | false =>
      simp only [Bool.false_eq_true, if_false]
      rcases hchildren with ⟨hfind, hadd⟩ | ⟨k, path, u, hfind, hadd⟩
      · rw [hfind, hadd]
      · rw [hfind, hadd, Nat.zero_add]
        rfl

theorem addFirstChild_cases (hhere : ∀ t, here t = if target t then some (edit t) else none) :
    ∀ (ts : List (SystemTreeNode S)) (i : Nat),
      ((preorderChildren i ts).find? (fun place => target place.2) = none ∧
        addFirstChild here ts = (false, ts)) ∨
      ∃ k path u, (preorderChildren i ts).find? (fun place => target place.2) =
          some ((i + k) :: path, u) ∧
        addFirstChild here ts = (true, ts.modify k (modifyAt edit path))
  | [], _ => .inl ⟨rfl, rfl⟩
  | child :: children, i => by
    have hchild := addFirst_eq hhere child
    have hmap : ((preorder child).map fun place => (i :: place.1, place.2)).find?
        (fun place => target place.2) =
        ((preorder child).find? fun place => target place.2).map
          fun place => (i :: place.1, place.2) := List.find?_map
    rw [preorderChildren, List.find?_append, hmap, addFirstChild]
    cases hfind : (preorder child).find? (fun place => target place.2) with
    | some place =>
      rw [hfind] at hchild
      exact .inr ⟨0, place.1, place.2, rfl, by rw [hchild]; rfl⟩
    | none =>
      rw [hfind] at hchild
      rw [hchild]
      rcases addFirstChild_cases hhere children (i + 1) with
        ⟨hrest, hadd⟩ | ⟨k, path, u, hrest, hadd⟩
      · exact .inl ⟨hrest, by rw [hadd]⟩
      · refine .inr ⟨k + 1, path, u, ?_, by rw [hadd]; rfl⟩
        rw [Option.map_none, Option.none_or, hrest]
        congr 3
        omega

end

end Search

/-- The loop of the neighbours stops at the first child of the target group. -/
theorem addBeside_cases (node : SystemTreeNode S) (targetGroup : String) (addBefore : Bool) :
    ∀ (ts : List (SystemTreeNode S)) (i : Nat),
      ((ts.zipIdx i).find? (fun child => child.1.getGroup = targetGroup) = none ∧
        addBeside node targetGroup addBefore ts = (false, ts)) ∨
      ∃ k u, (ts.zipIdx i).find? (fun child => child.1.getGroup = targetGroup) = some (u, i + k) ∧
        addBeside node targetGroup addBefore ts =
          (true, ts.insertIdx (if addBefore then k else k + 1) node)
  | [], _ => .inl ⟨rfl, rfl⟩
  | child :: children, i => by
    rw [List.zipIdx_cons, List.find?_cons, addBeside]
    by_cases hgroup : child.getGroup = targetGroup
    · right
      simp only [hgroup, decide_true, ne_eq, not_true_eq_false, if_false]
      refine ⟨0, child, rfl, ?_⟩
      cases addBefore with
      | true => rfl
      | false => rfl
    · simp only [hgroup, decide_false, ne_eq, not_false_eq_true, if_true]
      rcases addBeside_cases node targetGroup addBefore children (i + 1) with
        ⟨hrest, hadd⟩ | ⟨k, u, hrest, hadd⟩
      · exact .inl ⟨hrest, by rw [hadd]⟩
      · refine .inr ⟨k + 1, u, ?_, ?_⟩
        · rw [hrest]
          congr 2
          omega
        · rw [hadd]
          cases addBefore with
          | true => rfl
          | false => rfl

/-! ## What the adders do -/

/-- The places searched for the target of an insertion: all of them for a place inside it, the
children of the root for a place beside it. -/
def searched (t : SystemTreeNode S) (addInside : Bool) : List (List Nat × SystemTreeNode S) :=
  if addInside then t.preorder else t.childPlaces

theorem addSystemTreeNode_eq_atFirst (t node : SystemTreeNode S) (targetGroup : String)
    (addBefore addInside : Bool) : t.addSystemTreeNode node targetGroup addBefore addInside =
      atFirst (t.searched addInside) t node targetGroup addBefore addInside := by
  cases addInside with
  | true =>
    refine (@addFirst_eq S _ (fun u => u.getGroup = targetGroup) (insertInside node addBefore)
      ?_ t).trans rfl
    rintro ⟨shouldRun, group, startSystems, children, endSystems⟩
    simp only [getGroup, decide_eq_true_eq, eq_comm (a := group)]
    split
    · cases addBefore with
      | true => rfl
      | false => rfl
    · rfl
  | false =>
    cases t with
    | node shouldRun group startSystems children endSystems =>
      have hmap : (children.zipIdx.map fun child => ([child.2], child.1)).find?
          (fun place : List Nat × SystemTreeNode S => place.2.getGroup = targetGroup) =
          (children.zipIdx.find? fun child => child.1.getGroup = targetGroup).map
            fun child => ([child.2], child.1) := List.find?_map
      simp only [addSystemTreeNode, Bool.false_eq_true, if_false, atFirst, searched, childPlaces]
      rw [hmap]
      rcases addBeside_cases node targetGroup addBefore children 0 with
        ⟨hfind, hadd⟩ | ⟨k, u, hfind, hadd⟩
      · rw [hfind, hadd]
        rfl
      · rw [hfind, hadd, Nat.zero_add]
        rfl

/-- What `atFirst` answers. -/
theorem atFirst_fst {places : List (List Nat × SystemTreeNode S)} {t node : SystemTreeNode S}
    {targetGroup : String} {addBefore addInside : Bool} :
    (atFirst places t node targetGroup addBefore addInside).1 = true ↔
      ∃ place ∈ places, place.2.getGroup = targetGroup := by
  unfold atFirst
  cases hfind : places.find? (fun place => place.2.getGroup = targetGroup) with
  | none =>
    have hnone := List.find?_eq_none.mp hfind
    simp only [decide_eq_true_eq] at hnone
    simp only [Bool.false_eq_true, false_iff, not_exists, not_and]
    exact hnone
  | some place =>
    have hgroup := List.find?_some hfind
    simp only [true_iff]
    exact ⟨place, List.mem_of_find?_eq_some hfind, of_decide_eq_true hgroup⟩

/-- **An insertion finds its first target**, among all groups of the tree for a place inside it and
among the children of the root for a place beside it. The answer tells whether there is one; if so,
one child is inserted there and nothing else changes, and otherwise nothing changes. -/
theorem adders_insert_atFirst (t : SystemTreeNode S) (targetGroup : String)
    (addBefore addInside : Bool) :
    (∀ node, t.addSystemTreeNode node targetGroup addBefore addInside =
        atFirst (t.searched addInside) t node targetGroup addBefore addInside) ∧
      (∀ newGroup, t.addSystemGroup targetGroup newGroup addBefore addInside =
        atFirst (t.searched addInside) t (new newGroup) targetGroup addBefore addInside) ∧
      ∀ node, (t.addSystemTreeNode node targetGroup addBefore addInside).1 = true ↔
        ∃ place ∈ t.searched addInside, place.2.getGroup = targetGroup := by
  refine ⟨fun node => addSystemTreeNode_eq_atFirst .., fun newGroup => ?_, fun node => ?_⟩
  · exact addSystemTreeNode_eq_atFirst ..
  · rw [addSystemTreeNode_eq_atFirst]
    exact atFirst_fst

/-- A group two levels down is not found as a place to insert beside. -/
theorem beside_grandchild_false : ∃ t : SystemTreeNode Nat,
    (∃ place ∈ t.preorder, place.1 ≠ [] ∧ place.2.getGroup = "RENDER") ∧
      (t.addSystemGroup "RENDER" "UI" false false).1 = false := by
  refine ⟨.node true "ROOT" [] [.node true "ROOT_RENDER" [] [.new "RENDER"] []] [], ?_, rfl⟩
  exact ⟨([0, 0], .new "RENDER"), by simp [preorder, preorderChildren, new], by decide, rfl⟩

end ProjectE.Ecs.SystemTreeNode
