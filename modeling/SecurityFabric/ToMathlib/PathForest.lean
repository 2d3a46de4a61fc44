import Mathlib.Data.List.Infix
import Mathlib.Data.List.Chain

/-! # A forest given by the paths of its nodes

A node is named by its path: the nodes from its root down to itself. The paths of a forest are closed
under leaving out the last node, and a node has one path. Then to lie below a node, to have its path as
a beginning, to have it anywhere inside, to have the node on one's own path, and to be reached from
it over children are the same.
-/

namespace SecurityFabric

open List

variable {α : Type} {paths : Set (List α)}

/-- Nonempty paths, closed under leaving out the last node, at most one for each last node. -/
structure PathForest (paths : Set (List α)) : Prop where
  nonempty : ∀ path ∈ paths, path ≠ []
  closed : ∀ path ∈ paths, path.dropLast ≠ [] → path.dropLast ∈ paths
  unique : ∀ path ∈ paths, ∀ other ∈ paths, path.getLast? = other.getLast? → path = other

namespace PathForest

/-- The first node is right above the second. -/
def Parent (paths : Set (List α)) (above node : α) : Prop := ∃ init, init ++ [above, node] ∈ paths

variable {node : α}

theorem mem_of_append (forest : PathForest paths) {init : List α} {above : α} (mem : init ++ [above, node] ∈ paths) :
    init ++ [above] ∈ paths := by
  have shorter : (init ++ [above, node]).dropLast = init ++ [above] := by
    rw [append_cons, dropLast_concat]
  rw [← shorter]
  exact forest.closed _ mem (by simp)

variable {path : List α}

theorem mem_of_begins (forest : PathForest paths) {front : List α} (mem : path ∈ paths) (nonempty : front ≠ [])
    (begins : front <+: path) : front ∈ paths := by
  induction path using reverseRecOn with
  | nil => exact absurd (prefix_nil.mp begins) nonempty
  | append_singleton init node ih =>
    rcases prefix_concat_iff.mp begins with rfl | shorter
    · exact mem
    · have inner : init ≠ [] := fun empty => nonempty (prefix_nil.mp (empty ▸ shorter))
      have parent := forest.closed _ mem (by rwa [dropLast_concat])
      rw [dropLast_concat] at parent
      exact ih parent shorter

theorem begins_of_occurs (forest : PathForest paths) {inner : List α} (innerMem : inner ∈ paths) (mem : path ∈ paths)
    (occurs : inner <:+: path) : inner <+: path := by
  obtain ⟨front, back, rfl⟩ := occurs
  have nonempty := forest.nonempty inner innerMem
  have begins : front ++ inner ∈ paths := forest.mem_of_begins mem (append_ne_nil_of_right_ne_nil front nonempty)
    (prefix_append _ back)
  have same : front ++ inner = inner := forest.unique _ begins _ innerMem (getLast?_append_of_ne_nil front nonempty)
  rw [same]
  exact prefix_append inner back

theorem begins_iff_mem (forest : PathForest paths) {inner : List α} (innerMem : inner ∈ paths)
    (last : inner.getLast? = some node) (mem : path ∈ paths) : inner <+: path ↔ node ∈ path := by
  constructor
  · intro begins
    exact begins.subset (mem_of_getLast? last)
  · intro onPath
    obtain ⟨front, back, rfl⟩ := append_of_mem onPath
    have begins : front ++ [node] <+: front ++ node :: back := ⟨back, by simp⟩
    have found := forest.mem_of_begins mem (concat_ne_nil node front) begins
    have same : inner = front ++ [node] := forest.unique _ innerMem _ found (by rw [last, getLast?_concat])
    rw [same]
    exact begins

/-- The nodes on a path are those from which its last node is reached. -/
theorem reaches_iff_mem (forest : PathForest paths) (mem : path ∈ paths) (last : path.getLast? = some node) (top : α) :
    Relation.ReflTransGen (Parent paths) top node ↔ top ∈ path := by
  constructor
  · intro reached
    induction reached generalizing path with
    | refl => exact mem_of_getLast? last
    | @tail above node _ edge ih =>
      obtain ⟨init, isPath⟩ := edge
      have same : path = init ++ [above, node] := forest.unique _ mem _ isPath (by simp [last])
      have onParent := ih (forest.mem_of_append isPath) getLast?_concat
      rw [same, append_cons]
      exact mem_append_left _ onParent
  · intro onPath
    induction path using reverseRecOn generalizing node with
    | nil => cases onPath
    | append_singleton init lowest ih =>
      obtain rfl : lowest = node := by simpa using last
      rcases mem_append.mp onPath with inside | isLast
      · obtain ⟨front, above, rfl⟩ := (eq_nil_or_concat' init).resolve_left (ne_nil_of_mem inside)
        rw [append_assoc] at mem
        exact (ih (forest.mem_of_append mem) getLast?_concat inside).tail ⟨front, mem⟩
      · rw [mem_singleton.mp isLast]

theorem acyclic (forest : PathForest paths) (node : α) : ¬ Relation.TransGen (Parent paths) node node := by
  intro cycle
  obtain ⟨child, ⟨init, isPath⟩, rest⟩ := Relation.TransGen.head'_iff.mp cycle
  have path := forest.mem_of_append isPath
  have onPath := (forest.reaches_iff_mem path getLast?_concat child).mp rest
  have begins := (forest.begins_iff_mem isPath (by simp) path).mpr onPath
  simpa using begins.length_le

/-- The first node of a path with a property is the only one on the path that has it and is not below another one. -/
theorem existsUnique_top (forest : PathForest paths) {p : α → Prop} [DecidablePred p] (mem : path ∈ paths)
    (some : ∃ node ∈ path, p node) :
    ∃! top, (p top ∧ ∀ own ∈ paths, own.getLast? = Option.some top → ∀ node ∈ own, p node → node = top) ∧
    top ∈ path := by
  have beginning {front back : List α} {node : α} (isPath : path = front ++ node :: back) : front ++ [node] ∈ paths :=
    forest.mem_of_begins mem (concat_ne_nil node front) ⟨back, by simp [isPath]⟩
  cases found : path.find? fun node => p node with
  | none =>
    obtain ⟨node, within, isHeld⟩ := some
    exact absurd (decide_eq_true isHeld) (find?_eq_none.mp found node within)
  | some top =>
    obtain ⟨isHeld, front, back, isPath, free⟩ := find?_eq_some_iff_append.mp found
    have freeFront : ∀ node ∈ front, ¬ p node := by simpa using free
    refine ⟨top, ⟨⟨of_decide_eq_true isHeld, fun own isOwn last node within nodeHeld => ?_⟩, by simp [isPath]⟩, ?_⟩
    · rw [forest.unique _ isOwn _ (beginning isPath) (by rw [last, getLast?_concat])] at within
      rcases mem_append.mp within with above | isTop
      · exact absurd nodeHeld (freeFront node above)
      · exact mem_singleton.mp isTop
    · rintro other ⟨⟨otherHeld, only⟩, onPath⟩
      rw [isPath] at onPath
      rcases mem_append.mp onPath with above | below
      · exact absurd otherHeld (freeFront other above)
      · obtain ⟨between, rest, isBelow⟩ := append_of_mem below
        have own := @beginning (front ++ between) rest other (by rw [isPath, isBelow, append_assoc])
        refine (only _ own getLast?_concat top ?_ (of_decide_eq_true isHeld)).symm
        cases between with
        | nil => simp [(cons.inj isBelow).1]
        | cons first between => simp [(cons.inj isBelow).1]

end PathForest

end SecurityFabric
