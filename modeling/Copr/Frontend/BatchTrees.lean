import Mathlib.Data.Fintype.Card
import Mathlib.Data.Set.Finite.Basic
import Copr.Lib.Ancestry
import Copr.Lib.WorkLists
import Copr.Frontend.Models

/-!
# Trees of pending batches

`pending_batch_trees` of `BatchesLogic` in `coprs/logic/batches_logic.py`. The nodes of `anytree`
are objects: here they are numbered as they are made, and a node knows its parent. As the library
does, setting a parent fails if this makes a loop. The set of pending batches is given, with the
rows of the `batch` table.
-/

namespace Copr

open WorkLists

/-- The `batch` table. -/
structure BatchTable where
  /-- The rows. -/
  rows : List Batch
  /-- `id` is the primary key. -/
  ids : ∀ a ∈ rows, ∀ b ∈ rows, a.id = b.id → a = b
  /-- Ids come from a sequence that starts with one. -/
  positive : ∀ b ∈ rows, 0 < b.id
  /-- `blocked_by_id` is a foreign key. -/
  parents : ∀ b ∈ rows, ∀ i, b.blockedById = some i → ∃ p ∈ rows, p.id = i

/-- `batch.blocked_by`. -/
def BatchTable.blockedBy (table : BatchTable) (batch : Batch) : Option Batch :=
  batch.blockedById.bind fun i => table.rows.find? fun p => p.id = i

/-- `anytree.Node`. -/
structure TreeNode where
  /-- `name`, which is the batch. -/
  batch : Batch
  /-- `parent`, by its number. -/
  parent : Option Nat := none
  deriving DecidableEq, Repr

/-- The local variables of `pending_batch_trees`, with all nodes that were made. -/
structure BatchTrees where
  /-- The nodes; the number of a node is its place. -/
  nodes : List TreeNode := []
  /-- `node_map`, from the id of a batch to the number of a node. -/
  nodeMap : List (Nat × Nat) := []
  /-- `roots`, by their numbers. -/
  roots : List Nat := []
  deriving DecidableEq, Repr

namespace BatchTrees

/-- `get_mapped_node`. -/
def getMappedNode (s : BatchTrees) (batch : Batch) : Nat × BatchTrees :=
  match s.nodeMap.lookup batch.id with
  | some node => (node, s)
  | none => (s.nodes.length, { s with
      nodes := s.nodes ++ [{ batch := batch }]
      nodeMap := (batch.id, s.nodes.length) :: s.nodeMap })

/-- A node, its parent, the parent of this one and so on. -/
def path (nodes : List TreeNode) : Nat → Nat → List Nat
  | 0, _ => []
  | fuel + 1, node =>
    node :: match nodes[node]? with
      | some { batch := _, parent := some above } => path nodes fuel above
      | _ => []

/-- `node.parent = parent`; `none` when it raises `LoopError`. -/
def setParent (s : BatchTrees) (node parent : Nat) : Option BatchTrees :=
  if node ∈ path s.nodes s.nodes.length parent then none
  else some { s with nodes := s.nodes.modify node fun n => { n with parent := some parent } }

/-- The body of the loop; what it schedules comes with the result. An exception is `none`. -/
def visit (table : BatchTable) (s : BatchTrees) (batch : Batch) :
    Option (BatchTrees × List Batch) :=
  let (node, s) := s.getMappedNode batch
  if batch.blockedById.getD 0 ≠ 0 then
    (table.blockedBy batch).bind fun blockedBy =>
      let (parentNode, s) := s.getMappedNode blockedBy
      (s.setParent node parentNode).map fun s => (s, [blockedBy])
  else some ({ s with roots := s.roots ++ [node] }, [])

/-- `pending_batch_trees` returns the roots of these trees. -/
def Returns (table : BatchTable) (pending : List Batch) (trees : BatchTrees) : Prop :=
  EndsWith (visit table) (WorkList.ofTasks pending) {} trees

/-- The batch of a node. -/
def batchOf (s : BatchTrees) (node : Nat) : Option Batch := s.nodes[node]?.map TreeNode.batch

/-- The parent of a node. -/
def parentOf (s : BatchTrees) (node : Nat) : Option Nat := s.nodes[node]?.bind TreeNode.parent

/-- The node is in one of the trees. -/
def InTrees (s : BatchTrees) (node : Nat) : Prop :=
  ∃ root ∈ s.roots, Relation.ReflTransGen (fun n m => s.parentOf n = some m) node root

end BatchTrees

/-- The batch is pending or blocks a pending one, directly or not. -/
def NeededBatch (table : BatchTable) (pending : List Batch) (batch : Batch) : Prop :=
  ∃ p ∈ pending, Relation.ReflTransGen (Ancestry.IsParent table.blockedBy) p batch

/-- The trees are those of the pending batches. -/
structure ExactTrees (table : BatchTable) (pending : List Batch) (s : BatchTrees) : Prop where
  /-- Each batch that is needed has one node. -/
  one : ∀ b, NeededBatch table pending b → ∃! node, s.InTrees node ∧ s.batchOf node = some b
  /-- There is no other node. -/
  only : ∀ node, s.InTrees node → ∃ b, NeededBatch table pending b ∧ s.batchOf node = some b
  /-- The parent of a node is the node of the blocking batch. -/
  parents : ∀ node b, s.InTrees node → s.batchOf node = some b → ∀ above,
    s.parentOf node = some above ↔
      s.InTrees above ∧ ∃ p, table.blockedBy b = some p ∧ s.batchOf above = some p
  /-- The roots are the nodes of the batches that no batch blocks. -/
  roots : ∀ node, node ∈ s.roots ↔
    s.InTrees node ∧ ∃ b, s.batchOf node = some b ∧ b.blockedById = none
  /-- No root comes twice. -/
  nodup : s.roots.Nodup

namespace BatchTrees

variable {table : BatchTable} {pending order : List Batch} {s s' : BatchTrees} {b c p : Batch}
  {n m above : Nat}

/-- The number under which the map has a batch. -/
def nodeOf (s : BatchTrees) (batch : Batch) : Option Nat := s.nodeMap.lookup batch.id

/-- The map leads from each batch to its node, and only rows have nodes. -/
structure Mapped (table : BatchTable) (s : BatchTrees) : Prop where
  /-- A node is of a row. -/
  rows : ∀ n b, s.batchOf n = some b → b ∈ table.rows
  /-- The map knows the nodes. -/
  keys : ∀ b ∈ table.rows, ∀ n, s.nodeOf b = some n ↔ s.batchOf n = some b

/-- What is so after the batches `order` were visited. -/
structure Grown (table : BatchTable) (order : List Batch) (s : BatchTrees) : Prop extends
    Mapped table s where
  /-- Batches have nodes if they were visited or block such a batch. -/
  known : ∀ b, (∃ n, s.batchOf n = some b) ↔ b ∈ order ∨ ∃ a ∈ order, table.blockedBy a = some b
  /-- Visited batches have their parents, the others have none yet. -/
  parents : ∀ n b, s.batchOf n = some b → s.parentOf n =
    if b ∈ order then (table.blockedBy b).bind s.nodeOf else none
  /-- The visited batches that no batch blocks are the roots. -/
  roots : s.roots.map s.batchOf = (order.filter fun b => b.blockedById.isNone).map some

/-- What `get_mapped_node` does to a map that is right. -/
structure Got (s : BatchTrees) (b : Batch) (node : Nat) (s' : BatchTrees) : Prop where
  /-- The node is of the batch, other nodes stay. -/
  batches : ∀ n, s'.batchOf n = if n = node then some b else s.batchOf n
  /-- No parent changes. -/
  parents : ∀ n, s'.parentOf n = s.parentOf n
  /-- The map has the batch. -/
  map : ∀ c, s'.nodeOf c = if c.id = b.id then some node else s.nodeOf c
  /-- No root changes. -/
  roots : s'.roots = s.roots
  /-- The number was that of the batch, or not in use. -/
  before : s.batchOf node = some b ∨ s.batchOf node = none ∧ s.nodeOf b = none

/-- `get_mapped_node` returns the node of a batch, or adds one, and changes nothing else. -/
theorem getMappedNode_got (mapped : Mapped table s) (row : b ∈ table.rows) :
    Got s b (s.getMappedNode b).1 (s.getMappedNode b).2 := by
  unfold getMappedNode
  split
  · rename_i node found
    have there : s.batchOf node = some b := (mapped.keys b row node).mp found
    refine ⟨?_, fun n => rfl, ?_, rfl, Or.inl there⟩
    · intro n
      by_cases same : n = node
      · rw [if_pos same, same, there]
      · rw [if_neg same]
    · intro c
      by_cases same : c.id = b.id
      · rw [if_pos same, nodeOf, same]
        exact found
      · rw [if_neg same]
  · rename_i absent
    refine ⟨?_, ?_, ?_, rfl, Or.inr ⟨by simp [batchOf], absent⟩⟩
    · intro n
      simp only [batchOf, List.getElem?_append, List.getElem?_singleton]
      by_cases inside : n < s.nodes.length
      · rw [if_pos inside, if_neg (by omega)]
      · by_cases same : n = s.nodes.length
        · simp [same]
        · rw [if_neg inside, if_neg (by omega), if_neg same, List.getElem?_eq_none (by omega)]
    · intro n
      simp only [parentOf, List.getElem?_append, List.getElem?_singleton]
      by_cases inside : n < s.nodes.length
      · rw [if_pos inside]
      · rw [if_neg inside, List.getElem?_eq_none (by omega)]
        split <;> rfl
    · intro c
      simp only [nodeOf, List.lookup_cons]
      by_cases same : c.id = b.id
      · simp [same]
      · rw [if_neg same, beq_eq_false_iff_ne.mpr same]

/-- The node that was got is one of the batch. -/
theorem Got.node (got : Got s b n s') : s'.batchOf n = some b := by
  rw [got.batches, if_pos rfl]

/-- Nodes that were there stay. -/
theorem Got.kept (got : Got s b n s') (there : s.batchOf m = some c) :
    s'.batchOf m = some c := by
  rw [got.batches]
  split
  · rename_i same
    rw [same] at there
    rcases got.before with known | ⟨unused, -⟩
    · exact known.symm.trans there
    · rw [unused] at there
      contradiction
  · exact there

/-- A map that was right still is after `get_mapped_node`. -/
theorem Got.mapped (got : Got s b n s') (mapped : Mapped table s) (row : b ∈ table.rows) :
    Mapped table s' where
  rows m c there := by
    rw [got.batches] at there
    split at there
    · exact Option.some.inj there ▸ row
    · exact mapped.rows m c there
  keys c inRows m := by
    rw [got.map, got.batches]
    by_cases same : c.id = b.id
    · obtain rfl := table.ids c inRows b row same
      rw [if_pos rfl]
      by_cases equal : m = n
      · simp [equal]
      · rw [if_neg equal, Option.some.injEq]
        refine ⟨fun other => absurd other.symm equal, fun there => ?_⟩
        have known := (mapped.keys c inRows m).mpr there
        rcases got.before with before | ⟨-, absent⟩
        · have also := (mapped.keys c inRows n).mpr before
          exact Option.some.inj (also.symm.trans known)
        · rw [absent] at known
          contradiction
    · rw [if_neg same, mapped.keys c inRows m]
      by_cases equal : m = n
      · subst equal
        rw [if_pos rfl]
        rcases got.before with before | ⟨unused, -⟩
        · rw [before]
        · rw [unused]
          constructor
          · intro there
            contradiction
          · intro there
            exact absurd (congrArg Batch.id (Option.some.inj there)).symm same
      · rw [if_neg equal]

/-- After `get_mapped_node` the batches with nodes are those from before and the batch itself. -/
theorem Got.exists_iff (got : Got s b n s') :
    (∃ m, s'.batchOf m = some c) ↔ c = b ∨ ∃ m, s.batchOf m = some c := by
  constructor
  · rintro ⟨m, there⟩
    rw [got.batches] at there
    split at there
    · exact Or.inl (Option.some.inj there).symm
    · exact Or.inr ⟨m, there⟩
  · rintro (rfl | ⟨m, there⟩)
    · exact ⟨n, got.node⟩
    · exact ⟨m, got.kept there⟩

/-! ## Parents -/

/-- The blocking batch is a row. -/
theorem blockedBy_mem (blocked : table.blockedBy b = some p) : p ∈ table.rows := by
  obtain ⟨i, -, found⟩ := Option.bind_eq_some_iff.mp blocked
  exact List.mem_of_find?_eq_some found

/-- A row that has a `blocked_by_id` has a blocking batch. -/
theorem blockedBy_isSome (row : b ∈ table.rows) :
    (table.blockedBy b).isSome = b.blockedById.isSome := by
  unfold BatchTable.blockedBy
  cases blocked : b.blockedById with
  | none => rfl
  | some i =>
    obtain ⟨q, member, same⟩ := table.parents b row i blocked
    rw [Option.bind_some, Option.isSome_some]
    exact List.find?_isSome.mpr ⟨q, member, decide_eq_true same⟩

/-- A row has a `blocked_by_id` that is not zero, or none. -/
theorem blocked_iff (row : b ∈ table.rows) :
    b.blockedById.getD 0 ≠ 0 ↔ b.blockedById.isSome = true := by
  cases blocked : b.blockedById with
  | none => simp
  | some i =>
    obtain ⟨q, member, same⟩ := table.parents b row i blocked
    have positive := table.positive q member
    simp only [Option.getD_some, Option.isSome_some, iff_true]
    omega

/-- A node on the path of another one is of an ancestor. -/
theorem ancestor_of_path
    (parents : ∀ n b m, s.batchOf n = some b → s.parentOf n = some m →
      ∃ p, table.blockedBy b = some p ∧ s.batchOf m = some p) {fuel : Nat}
    (first : s.batchOf above = some p) (on : n ∈ path s.nodes fuel above) :
    ∃ b, s.batchOf n = some b ∧
      Relation.ReflTransGen (Ancestry.IsParent table.blockedBy) p b := by
  induction fuel generalizing above p with
  | zero => contradiction
  | succ fuel ih =>
    rw [path, List.mem_cons] at on
    rcases on with rfl | on
    · exact ⟨p, first, .refl⟩
    · split at on
      · rename_i batch further found
        have parent : s.parentOf above = some further := by simp [parentOf, found]
        obtain ⟨q, blocked, there⟩ := parents above p further first parent
        obtain ⟨b, last, way⟩ := ih there on
        exact ⟨b, last, .head blocked way⟩
      · contradiction

/-- Setting a parent that is not below the node. -/
theorem setParent_eq (allowed : n ∉ path s.nodes s.nodes.length above) :
    ∃ s', s.setParent n above = some s' ∧ (∀ m, s'.batchOf m = s.batchOf m) ∧
      (∀ m, s'.parentOf m = if m = n ∧ (s.batchOf n).isSome then some above else s.parentOf m) ∧
      (∀ c, s'.nodeOf c = s.nodeOf c) ∧ s'.roots = s.roots := by
  refine ⟨_, if_neg allowed, ?_, ?_, fun c => rfl, rfl⟩
  · intro m
    simp only [batchOf, List.getElem?_modify]
    cases s.nodes[m]? with
    | none => rfl
    | some node => by_cases same : n = m <;> simp [same]
  · intro m
    simp only [parentOf, batchOf, List.getElem?_modify, Option.isSome_map]
    by_cases same : m = n
    · subst same
      cases s.nodes[m]? with
      | none => simp
      | some node => simp
    · have other : ¬ n = m := fun equal => same equal.symm
      simp only [same, false_and, if_false]
      cases s.nodes[m]? with
      | none => rfl
      | some node => simp [other]

/-! ## One batch more -/

/-- In a map that is right a batch has one node. -/
theorem Mapped.unique (mapped : Mapped table s) (first : s.batchOf n = some b)
    (second : s.batchOf m = some b) : n = m := by
  have row := mapped.rows n b first
  have one := (mapped.keys b row n).mpr first
  have other := (mapped.keys b row m).mpr second
  exact Option.some.inj (one.symm.trans other)

/-- A number without a batch has no parent. -/
theorem parentOf_of_batchOf (unused : s.batchOf n = none) : s.parentOf n = none := by
  rw [batchOf, Option.map_eq_none_iff] at unused
  rw [parentOf, unused]
  rfl

/-- A batch with a parent in the trees has the parent that blocks it. -/
theorem Grown.parent_blocks (grown : Grown table order s) (there : s.batchOf n = some b)
    (parent : s.parentOf n = some m) :
    ∃ p, table.blockedBy b = some p ∧ s.batchOf m = some p := by
  rw [grown.parents n b there] at parent
  split at parent
  · obtain ⟨p, blocked, node⟩ := Option.bind_eq_some_iff.mp parent
    exact ⟨p, blocked, (grown.keys p (blockedBy_mem blocked) m).mp node⟩
  · contradiction

/-- A node keeps the right parent when more nodes are made. -/
theorem Grown.parent_kept (grown : Grown table order s) (mapped : Mapped table s')
    (kept : ∀ m c, s.batchOf m = some c → s'.batchOf m = some c) (there : s'.batchOf m = some c)
    (same : s'.parentOf m = s.parentOf m) :
    s'.parentOf m = if c ∈ order then (table.blockedBy c).bind s'.nodeOf else none := by
  by_cases visited : c ∈ order
  · rw [if_pos visited, same]
    obtain ⟨k, before⟩ := (grown.known c).mpr (Or.inl visited)
    obtain rfl := mapped.unique (kept k c before) there
    rw [grown.parents k c before, if_pos visited]
    cases blocked : table.blockedBy c with
    | none => rfl
    | some q =>
      obtain ⟨l, node⟩ := (grown.known q).mpr (Or.inr ⟨c, visited, blocked⟩)
      have row := blockedBy_mem blocked
      rw [Option.bind_some, Option.bind_some, (grown.keys q row l).mpr node,
        (mapped.keys q row l).mpr (kept l q node)]
  · rw [if_neg visited, same]
    cases before : s.batchOf m with
    | none => exact parentOf_of_batchOf before
    | some d =>
      obtain rfl := Option.some.inj ((kept m d before).symm.trans there)
      rw [grown.parents m d before, if_neg visited]

/-- A node that was just got for a batch that was not visited has no parent. -/
theorem Grown.got_parent (grown : Grown table order s) (fresh : b ∉ order)
    (got : Got s b n s') : s'.parentOf n = none := by
  rw [got.parents]
  rcases got.before with there | ⟨unused, -⟩
  · rw [grown.parents n b there, if_neg fresh]
  · exact parentOf_of_batchOf unused

/-- The roots stay the nodes they were. -/
theorem Grown.roots_kept (grown : Grown table order s)
    (kept : ∀ m c, s.batchOf m = some c → s'.batchOf m = some c) :
    s.roots.map s'.batchOf = s.roots.map s.batchOf := by
  refine List.map_congr_left fun root member => ?_
  have inside : s.batchOf root ∈ s.roots.map s.batchOf := List.mem_map_of_mem member
  rw [grown.roots] at inside
  obtain ⟨c, -, there⟩ := List.mem_map.mp inside
  rw [kept root c there.symm, ← there]

/-- A batch that no other one blocks becomes a root. -/
theorem Grown.visit_root (grown : Grown table order s) (row : b ∈ table.rows) (fresh : b ∉ order)
    (free : b.blockedById = none) :
    ∃ s', visit table s b = some (s', (table.blockedBy b).toList) ∧
      Grown table (order ++ [b]) s' := by
  have got := getMappedNode_got grown.toMapped row
  have mapped := got.mapped grown.toMapped row
  have noParent := grown.got_parent fresh got
  have top : table.blockedBy b = none := by rw [BatchTable.blockedBy, free]; rfl
  refine ⟨{ (s.getMappedNode b).2 with
    roots := (s.getMappedNode b).2.roots ++ [(s.getMappedNode b).1] }, ?_, ?_⟩
  · simp [visit, free, top]
  · refine { toMapped := ⟨mapped.rows, mapped.keys⟩, known := ?_, parents := ?_, roots := ?_ }
    · intro c
      refine got.exists_iff.trans ?_
      simp only [grown.known, List.mem_append, List.mem_singleton]
      constructor
      · rintro (rfl | visited | ⟨a, visited, blocks⟩)
        · exact Or.inl (Or.inr rfl)
        · exact Or.inl (Or.inl visited)
        · exact Or.inr ⟨a, Or.inl visited, blocks⟩
      · rintro ((visited | rfl) | ⟨a, visited | rfl, blocks⟩)
        · exact Or.inr (Or.inl visited)
        · exact Or.inl rfl
        · exact Or.inr (Or.inr ⟨a, visited, blocks⟩)
        · rw [top] at blocks
          contradiction
    · intro m c there
      by_cases same : c = b
      · subst same
        obtain rfl := mapped.unique got.node there
        rw [if_pos (by simp), top]
        exact noParent
      · have inOrder : c ∈ order ++ [b] ↔ c ∈ order := by simp [same]
        simp only [inOrder]
        exact grown.parent_kept ⟨mapped.rows, mapped.keys⟩ (fun m c => got.kept) there
          (got.parents m)
    · change ((s.getMappedNode b).2.roots ++ [(s.getMappedNode b).1]).map
        (s.getMappedNode b).2.batchOf = _
      rw [got.roots, List.map_append, grown.roots_kept fun m c => got.kept, grown.roots,
        List.map_singleton, got.node, List.filter_append, List.map_append]
      simp [free]

/-- A batch that another one blocks gets a parent. -/
theorem Grown.visit_blocked (grown : Grown table order s) (row : b ∈ table.rows)
    (fresh : b ∉ order) (acyclic : ¬ Ancestry.Ancestor table.blockedBy b b)
    (blocked : table.blockedBy b = some p) :
    ∃ s', visit table s b = some (s', (table.blockedBy b).toList) ∧
      Grown table (order ++ [b]) s' := by
  have got := getMappedNode_got grown.toMapped row
  have mapped := got.mapped grown.toMapped row
  have rowP := blockedBy_mem blocked
  have got' := getMappedNode_got mapped rowP
  have mapped' := got'.mapped mapped rowP
  generalize node : (s.getMappedNode b).1 = n at *
  generalize first : (s.getMappedNode b).2 = s₁ at *
  generalize parentNode : (s₁.getMappedNode p).1 = above at *
  generalize second : (s₁.getMappedNode p).2 = s₂ at *
  have kept : ∀ m c, s.batchOf m = some c → s₂.batchOf m = some c :=
    fun m c there => got'.kept (got.kept there)
  have same : ∀ m, s₂.parentOf m = s.parentOf m :=
    fun m => (got'.parents m).trans (got.parents m)
  have there : s₂.batchOf n = some b := got'.kept got.node
  have linked : ∀ k c m, s₂.batchOf k = some c → s₂.parentOf k = some m →
      ∃ q, table.blockedBy c = some q ∧ s₂.batchOf m = some q := by
    intro k c m batch parent
    rw [same] at parent
    cases before : s.batchOf k with
    | none =>
      rw [parentOf_of_batchOf before] at parent
      contradiction
    | some d =>
      obtain rfl := Option.some.inj ((kept k d before).symm.trans batch)
      obtain ⟨q, blocks, atM⟩ := grown.parent_blocks before parent
      exact ⟨q, blocks, kept m q atM⟩
  -- The parent is no descendant of the node, since its batch is not blocked by that of the node.
  have allowed : n ∉ path s₂.nodes s₂.nodes.length above := by
    intro on
    obtain ⟨c, last, way⟩ := ancestor_of_path linked got'.node on
    obtain rfl := Option.some.inj (last.symm.trans there)
    exact acyclic (Relation.TransGen.head' blocked way)
  obtain ⟨s', done, batches, parents, map, roots⟩ := setParent_eq allowed
  have mapped'' : Mapped table s' :=
    ⟨fun m c => batches m ▸ mapped'.rows m c, fun c inRows m => by
      rw [map, batches]
      exact mapped'.keys c inRows m⟩
  have given : b.blockedById.getD 0 ≠ 0 := by
    rw [blocked_iff row, ← blockedBy_isSome row, blocked]
    rfl
  refine ⟨s', ?_, { toMapped := mapped'', known := ?_, parents := ?_, roots := ?_ }⟩
  · simp only [visit, node, first, blocked, if_pos given, Option.bind_some, parentNode, second,
      done, Option.map_some, Option.toList_some]
  · intro c
    simp only [batches, got'.exists_iff, got.exists_iff, grown.known, List.mem_append,
      List.mem_singleton]
    constructor
    · rintro (rfl | rfl | visited | ⟨a, visited, blocks⟩)
      · exact Or.inr ⟨b, Or.inr rfl, blocked⟩
      · exact Or.inl (Or.inr rfl)
      · exact Or.inl (Or.inl visited)
      · exact Or.inr ⟨a, Or.inl visited, blocks⟩
    · rintro ((visited | rfl) | ⟨a, visited | rfl, blocks⟩)
      · exact Or.inr (Or.inr (Or.inl visited))
      · exact Or.inr (Or.inl rfl)
      · exact Or.inr (Or.inr (Or.inr ⟨a, visited, blocks⟩))
      · exact Or.inl (Option.some.inj (blocks.symm.trans blocked))
  · intro m c atM
    by_cases equal : c = b
    · subst equal
      rw [batches] at atM
      obtain rfl := mapped'.unique there atM
      rw [parents, if_pos ⟨rfl, by rw [there]; rfl⟩, if_pos (by simp), blocked, Option.bind_some,
        map]
      exact ((mapped'.keys p rowP above).mpr got'.node).symm
    · have inOrder : c ∈ order ++ [b] ↔ c ∈ order := by simp [equal]
      have other : m ≠ n := by
        rintro rfl
        rw [batches, there] at atM
        exact equal (Option.some.inj atM).symm
      simp only [inOrder]
      refine grown.parent_kept mapped'' (fun k d before => (batches k).trans (kept k d before)) atM
        ?_
      rw [parents, if_neg fun both => other both.1, same]
  · have unchanged : s'.roots = s.roots := roots.trans (got'.roots.trans got.roots)
    rw [unchanged, grown.roots_kept fun k d before => (batches k).trans (kept k d before),
      grown.roots, List.filter_append]
    have notRoot : b.blockedById.isNone = false := by
      rw [← Option.not_isSome, ← blockedBy_isSome row, blocked]
      rfl
    simp [notRoot]

/-- Before the first batch was visited no tree has grown. -/
theorem grown_start : Grown table [] {} where
  rows n b there := by simp [batchOf] at there
  keys b row n := by simp [batchOf, nodeOf]
  known b := by simp [batchOf]
  parents n b there := by simp [batchOf] at there
  roots := rfl

/-- The loop visits what the pending batches need. -/
theorem reached_iff : Reached (fun b => (table.blockedBy b).toList) pending b ↔
    NeededBatch table pending b := by
  have steps : (fun a b => b ∈ (table.blockedBy a).toList) =
      Ancestry.IsParent table.blockedBy := by
    funext a b
    rw [Option.mem_toList]
    rfl
  rw [Reached, NeededBatch, steps]

/-- Needed batches are rows. -/
theorem needed_mem (known : ∀ p ∈ pending, p ∈ table.rows)
    (needed : NeededBatch table pending b) : b ∈ table.rows := by
  obtain ⟨p, listed, way⟩ := needed
  cases way with
  | refl => exact known b listed
  | tail _ blocks => exact blockedBy_mem blocks

/-- Where no batch blocks itself, each batch has a topmost one above it. -/
theorem exists_top (acyclic : ∀ b, ¬ Ancestry.Ancestor table.blockedBy b b) (row : b ∈ table.rows) :
    ∃ top, Relation.ReflTransGen (Ancestry.IsParent table.blockedBy) b top ∧
      table.blockedBy top = none := by
  let above : {b // b ∈ table.rows} → {b // b ∈ table.rows} → Prop :=
    fun p b => Ancestry.Ancestor table.blockedBy b.1 p.1
  have finite : Finite {b // b ∈ table.rows} := List.finite_toSet table.rows
  have transitive : IsTrans _ above := ⟨fun _ _ _ first second => second.trans first⟩
  have irreflexive : Std.Irrefl above := ⟨fun b => acyclic b.1⟩
  have founded : WellFounded above := Finite.wellFounded_of_trans_of_irrefl above
  suffices each : ∀ b : {b // b ∈ table.rows}, ∃ top,
      Relation.ReflTransGen (Ancestry.IsParent table.blockedBy) b.1 top ∧
        table.blockedBy top = none from each ⟨b, row⟩
  intro b
  induction b using founded.induction with
  | _ b ih =>
    cases blocked : table.blockedBy b.1 with
    | none => exact ⟨b.1, .refl, blocked⟩
    | some p =>
      obtain ⟨top, way, last⟩ := ih ⟨p, blockedBy_mem blocked⟩ (.single blocked)
      exact ⟨top, .head blocked way, last⟩

/-- All batches that are needed were visited, so the trees are right. -/
theorem Grown.exact (grown : Grown table order s) (distinct : order.Nodup)
    (members : ∀ b, b ∈ order ↔ NeededBatch table pending b)
    (acyclic : ∀ b, ¬ Ancestry.Ancestor table.blockedBy b b) : ExactTrees table pending s := by
  have needed : ∀ b, (∃ n, s.batchOf n = some b) ↔ b ∈ order := by
    intro b
    rw [grown.known]
    refine ⟨fun either => ?_, Or.inl⟩
    rcases either with visited | ⟨a, visited, blocks⟩
    · exact visited
    · obtain ⟨p, listed, way⟩ := (members a).mp visited
      exact (members b).mpr ⟨p, listed, way.tail blocks⟩
  have parents : ∀ n b, s.batchOf n = some b → ∀ m,
      s.parentOf n = some m ↔ ∃ p, table.blockedBy b = some p ∧ s.batchOf m = some p := by
    intro n b there m
    refine ⟨grown.parent_blocks there, ?_⟩
    rintro ⟨p, blocks, atM⟩
    rw [grown.parents n b there, if_pos ((needed b).mp ⟨n, there⟩), blocks, Option.bind_some]
    exact (grown.keys p (blockedBy_mem blocks) m).mpr atM
  have rootsOf : ∀ n b, s.batchOf n = some b → (n ∈ s.roots ↔ b.blockedById = none) := by
    intro n b there
    have listed : some b ∈ s.roots.map s.batchOf ↔ b.blockedById = none := by
      rw [grown.roots]
      simp only [List.mem_map, Option.some.injEq, exists_eq_right, List.mem_filter,
        Option.isNone_iff_eq_none]
      exact ⟨fun both => both.2, fun free => ⟨(needed b).mp ⟨n, there⟩, free⟩⟩
    rw [← listed]
    constructor
    · intro member
      exact there ▸ List.mem_map_of_mem member
    · intro member
      obtain ⟨k, inRoots, same⟩ := List.mem_map.mp member
      exact grown.toMapped.unique same there ▸ inRoots
  -- Every node lies below the node of the topmost batch above its own.
  have inTrees : ∀ n b, s.batchOf n = some b → s.InTrees n := by
    intro n b there
    have row := grown.rows n b there
    obtain ⟨top, way, last⟩ := exists_top acyclic row
    have climbs : ∀ d, Relation.ReflTransGen (Ancestry.IsParent table.blockedBy) b d →
        ∃ root, s.batchOf root = some d ∧
          Relation.ReflTransGen (fun n m => s.parentOf n = some m) n root := by
      intro d way
      induction way with
      | refl => exact ⟨n, there, .refl⟩
      | @tail c d _ blocks ih =>
        obtain ⟨k, atC, path⟩ := ih
        obtain ⟨l, atD⟩ := (grown.known d).mpr (Or.inr ⟨c, (needed c).mp ⟨k, atC⟩, blocks⟩)
        exact ⟨l, atD, path.tail ((parents k c atC l).mpr ⟨d, blocks, atD⟩)⟩
    obtain ⟨root, atTop, path⟩ := climbs top way
    refine ⟨root, (rootsOf root top atTop).mpr ?_, path⟩
    have noId := blockedBy_isSome (grown.rows root top atTop)
    rw [last] at noId
    exact Option.not_isSome_iff_eq_none.mp (by rw [← noId]; simp)
  have batches : ∀ n, s.InTrees n → ∃ b, s.batchOf n = some b := by
    rintro n ⟨root, member, path⟩
    rcases path.cases_head with rfl | ⟨m, parent, -⟩
    · have inside : s.batchOf n ∈ s.roots.map s.batchOf := List.mem_map_of_mem member
      rw [grown.roots] at inside
      obtain ⟨b, -, there⟩ := List.mem_map.mp inside
      exact ⟨b, there.symm⟩
    · refine Option.ne_none_iff_exists'.mp fun unused => ?_
      rw [parentOf_of_batchOf unused] at parent
      contradiction
  refine ⟨?_, ?_, ?_, ?_, ?_⟩
  · intro b isNeeded
    obtain ⟨n, there⟩ := (needed b).mpr ((members b).mpr isNeeded)
    refine ⟨n, ⟨inTrees n b there, there⟩, fun m both => ?_⟩
    exact grown.toMapped.unique both.2 there
  · intro n tree
    obtain ⟨b, there⟩ := batches n tree
    exact ⟨b, (members b).mp ((needed b).mp ⟨n, there⟩), there⟩
  · intro n b _ there m
    rw [parents n b there]
    constructor
    · rintro ⟨p, blocks, atM⟩
      exact ⟨inTrees m p atM, p, blocks, atM⟩
    · exact fun both => both.2
  · intro n
    constructor
    · intro member
      have tree : s.InTrees n := ⟨n, member, .refl⟩
      obtain ⟨b, there⟩ := batches n tree
      exact ⟨tree, b, there, (rootsOf n b there).mp member⟩
    · rintro ⟨-, b, there, free⟩
      exact (rootsOf n b there).mpr free
  · have mapped : (s.roots.map s.batchOf).Nodup := by
      rw [grown.roots]
      exact (distinct.filter _).map (Option.some_injective _)
    exact mapped.of_map _

/-- `pending_batch_trees` ends, with one result: one node for each batch that is pending or blocks
a pending one, below the node of the batch that blocks it, and each batch that no batch blocks once
among the roots. -/
theorem pending_batch_trees_exact (table : BatchTable) (pending : List Batch)
    (known : ∀ p ∈ pending, p ∈ table.rows)
    (acyclic : ∀ b ∈ table.rows, ¬ Ancestry.Ancestor table.blockedBy b b) :
    ∃ trees, Returns table pending trees ∧
      (∀ other, Returns table pending other → other = trees) ∧
      ExactTrees table pending trees := by
  have acyclic : ∀ b, ¬ Ancestry.Ancestor table.blockedBy b b := by
    intro b around
    obtain ⟨c, -, blocks⟩ := Relation.TransGen.tail'_iff.mp around
    exact acyclic b (blockedBy_mem blocks) around
  have rows : ∀ b, Reached (fun b => (table.blockedBy b).toList) pending b → b ∈ table.rows :=
    fun b way => needed_mem known (reached_iff.mp way)
  obtain ⟨order, trees, ends, distinct, members, grown⟩ := @loop_ends _ _ _ (visit table)
    (fun b => (table.blockedBy b).toList) pending (Grown table) {} grown_start
    (by
      intro order s b way fresh grown
      cases blocked : table.blockedBy b with
      | none =>
        have noId := blockedBy_isSome (rows b way)
        rw [blocked, Option.isSome_none] at noId
        have free : b.blockedById = none := by
          rw [← Option.not_isSome_iff_eq_none, ← noId]
          simp
        obtain ⟨s', done, after⟩ := grown.visit_root (rows b way) fresh free
        exact ⟨s', blocked ▸ done, after⟩
      | some p =>
        obtain ⟨s', done, after⟩ := grown.visit_blocked (rows b way) fresh (acyclic b) blocked
        exact ⟨s', blocked ▸ done, after⟩)
    table.rows rows
  refine ⟨trees, ends, fun other also => also.unique ends, ?_⟩
  exact grown.exact distinct (fun b => (members b).trans reached_iff) acyclic

end BatchTrees

namespace Sample

/-- Three batches in a row and one that stands alone. -/
def batchTable : BatchTable where
  rows := [⟨1, none⟩, ⟨2, some 1⟩, ⟨3, some 2⟩, ⟨4, none⟩]
  ids := by decide
  positive := by decide
  parents := by decide

end Sample

namespace BatchTrees

open Sample

/-- The last of the three batches in a row is pending, and the batch that stands alone. -/
theorem pending_batch_trees_exact_sample :
    ∃ trees, ExactTrees batchTable [⟨3, some 2⟩, ⟨4, none⟩] trees := by
  have earlier : ∀ b ∈ batchTable.rows, ∀ p ∈ batchTable.blockedBy b, p.id < b.id := by decide
  have last : ∀ b ∈ batchTable.rows, b.id < 5 := by decide
  obtain ⟨trees, -, -, exact⟩ := pending_batch_trees_exact batchTable [⟨3, some 2⟩, ⟨4, none⟩]
    (by decide) (fun b _ =>
      Ancestry.acyclic (fun b => if b ∈ batchTable.rows then b.id else 5) (by
        intro b p blocked
        have row := blockedBy_mem blocked
        rw [if_pos row]
        split
        · rename_i inRows
          exact earlier b inRows p blocked
        · exact last p row) b)
  exact ⟨trees, exact⟩

/-- The blocking batches are found although they are not pending. -/
example : (rounds (visit batchTable) 4 (WorkList.ofTasks [⟨3, some 2⟩, ⟨4, none⟩], {})).map
    (fun s => (s.1.isEmpty, s.2.roots.map s.2.batchOf)) =
      some (true, [some ⟨4, none⟩, some ⟨1, none⟩]) := by
  decide

end BatchTrees

end Copr
