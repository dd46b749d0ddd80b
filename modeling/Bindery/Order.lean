import Bindery.Text.Sorted

namespace Bindery

/-- A node of a dependency graph; names that belong to no node are ignored. -/
structure Node where
  name : Text
  dependencies : List Text
  deriving DecidableEq, Repr

namespace Order

def nameOf (nodes : List Node) (index : Nat) : Text :=
  ((nodes[index]?).map Node.name).getD []

/-- The node that a name denotes, which is the last one of that name. -/
def indexOf? (nodes : List Node) (name : Text) : Option Nat :=
  ((List.range nodes.length).filter fun i => nameOf nodes i == name).getLast?

/-- The nodes that a node depends on, in the order of their names. -/
def targets (nodes : List Node) (index : Nat) : List Nat :=
  (Text.sortedSet (((nodes[index]?).map Node.dependencies).getD [])).filterMap (indexOf? nodes)

def dependents (nodes : List Node) : List (List Nat) :=
  let edges := (List.range nodes.length).map (targets nodes)
  (List.range nodes.length).map fun index =>
    (List.range nodes.length).filter fun i => (edges.getD i []).contains index

/-- Whether a node goes first: by its name, and of one name by its place. -/
def precedes (nodes : List Node) (i j : Nat) : Bool :=
  decide (nameOf nodes i < nameOf nodes j) || (nameOf nodes i == nameOf nodes j && decide (i < j))

def byName (nodes : List Node) : List Nat :=
  (List.range nodes.length).mergeSort fun i j => !precedes nodes j i

/-- Puts a node among nodes in order, where it may stand already. -/
def insertByName (nodes : List Node) (index : Nat) : List Nat → List Nat
  | [] => [index]
  | i :: rest =>
    if precedes nodes index i then index :: i :: rest
    else if index = i then i :: rest
    else i :: insertByName nodes index rest

/-- How far the order has come: what has been placed, for each node the number of nodes that it
still waits for, and by name the nodes that wait for none. -/
structure Progress where
  placed : List Nat
  pending : List Nat
  ready : List Nat
  deriving DecidableEq, Repr

/-- At first each node waits for all that it depends on. -/
def start (nodes : List Node) : Progress :=
  let pending := (List.range nodes.length).map fun i => (targets nodes i).length
  ⟨[], pending, (byName nodes).filter fun i => pending.getD i 0 == 0⟩

/-- A node waits for one node less; the one that waits for none any more is ready. -/
def release (nodes : List Node) (p : Progress) (index : Nat) : Progress :=
  match p.pending[index]? with
  | some (n + 1) =>
    { p with
      pending := p.pending.set index n
      ready := if n = 0 then insertByName nodes index p.ready else p.ready }
  | _ => p

/-- Places a node and releases those that depend on it, `rest` being the others that are ready. -/
def advance (nodes : List Node) (table : List (List Nat)) (p : Progress) (index : Nat)
    (rest : List Nat) : Progress :=
  (table.getD index []).foldl (release nodes) ⟨p.placed ++ [index], p.pending, rest⟩

/-- How often counters can be lowered. -/
def total : List Nat → Nat
  | [] => 0
  | counter :: rest => counter + total rest

/-- What is left to do: the counters to be lowered and the nodes that can be placed. -/
def Progress.work (p : Progress) : Nat :=
  total p.pending + p.ready.length

theorem total_set {counters : List Nat} {i n : Nat} (h : counters[i]? = some (n + 1)) :
    total (counters.set i n) + 1 = total counters := by
  induction counters generalizing i with
  | nil => cases h
  | cons counter rest ih =>
    cases i with
    | zero =>
      cases h
      rw [List.set_cons_zero, total, total]
      omega
    | succ i =>
      have hr := ih h
      rw [List.set_cons_succ, total, total]
      omega

theorem length_insertByName_le (nodes : List Node) (index : Nat) (ready : List Nat) :
    (insertByName nodes index ready).length ≤ ready.length + 1 := by
  induction ready with
  | nil => exact Nat.le_refl 1
  | cons i rest ih =>
    unfold insertByName
    split
    · exact Nat.le_refl _
    · split
      · exact Nat.le_succ _
      · exact Nat.succ_le_succ ih

theorem work_release_le (nodes : List Node) (p : Progress) (index : Nat) :
    (release nodes p index).work ≤ p.work := by
  unfold release
  split
  · rename_i n h
    have hs := total_set h
    have hl := length_insertByName_le nodes index p.ready
    simp only [Progress.work]
    split <;> omega
  · exact Nat.le_refl _

theorem work_foldl_release_le (nodes : List Node) (indices : List Nat) (p : Progress) :
    (indices.foldl (release nodes) p).work ≤ p.work := by
  induction indices generalizing p with
  | nil => exact Nat.le_refl _
  | cons index rest ih => exact Nat.le_trans (ih _) (work_release_le nodes p index)

/-- Places the first of the ready nodes again and again; `table` tells who depends on a node. -/
def run (nodes : List Node) (table : List (List Nat)) (p : Progress) : Progress :=
  match h : p.ready with
  | [] => p
  | index :: rest =>
    have : (advance nodes table p index rest).work < p.work := by
      have hw := work_foldl_release_le nodes (table.getD index [])
        ⟨p.placed ++ [index], p.pending, rest⟩
      have hl : p.work = total p.pending + (rest.length + 1) := by
        rw [Progress.work, h, List.length_cons]
      rw [hl]
      exact Nat.lt_succ_of_le hw
    run nodes table (advance nodes table p index rest)
termination_by p.work

/-- How far the nodes can be put in order. -/
def outcome (nodes : List Node) : Progress :=
  run nodes (dependents nodes) (start nodes)

/-- The nodes that still wait, by name. -/
def Progress.stuck (nodes : List Node) (p : Progress) : List Nat :=
  (byName nodes).filter fun i => decide (0 < p.pending.getD i 0)

/-- The first of the nodes that `index` depends on and that could not be placed. -/
def blocker? (nodes : List Node) (stuck : List Nat) (index : Nat) : Option Nat :=
  (targets nodes index).find? stuck.contains

/-- Walks from blocker to blocker for at most the given number of steps; when a node comes again,
the nodes from its first visit on are the loop. -/
def walk (nodes : List Node) (stuck : List Nat) : Nat → List Nat → Nat → List Nat
  | 0, path, _ => path
  | n + 1, path, current =>
    if path.contains current then path.dropWhile (· != current)
    else
      match blocker? nodes stuck current with
      | some next => walk nodes stuck n (path ++ [current]) next
      | none => path ++ [current]

/-- The names on a loop of the nodes that could not be placed. -/
def cycle (nodes : List Node) (stuck : List Nat) : List Text :=
  match stuck.find? fun i => indexOf? nodes (nameOf nodes i) == some i with
  | some start => (walk nodes stuck (nodes.length + 1) [] start).map (nameOf nodes)
  | none => []

/-- The nodes in an order in which dependencies come first, or the sorted names of a cycle. -/
def sort (nodes : List Node) : Except (List Text) (List Nat) :=
  let last := outcome nodes
  if last.placed.length = nodes.length then .ok last.placed
  else .error (Text.sorted (cycle nodes (last.stuck nodes)))

end Order

end Bindery
