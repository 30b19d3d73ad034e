import Mathlib.Data.List.Basic

/-!
# Trees of elements and texts

Elements with a tag and children, and texts, as a document has them. A node is named by the way from the
root to it, the indices of the children. The search goes through the tree in the order of the document,
and below the node it starts from.

## Main definitions

* `XmlTree.Node.content` — the texts in a node
* `XmlTree.Node.find` — the way to the first node of a kind
* `XmlTree.Node.modifyAt`, `XmlTree.Node.mapChildren` — changes of a node

## Main results

* `XmlTree.findIn_append`, `XmlTree.findIn_map` — the search among several nodes
-/

namespace XmlTree

/-- A node of a document. -/
inductive Node (τ α : Type*) where
  | element (tag : τ) (children : List (Node τ α))
  | text (s : List α)

variable {τ α β : Type*}

mutual

/-- The texts in a node. -/
def Node.content : Node τ α → List α
  | .element _ children => contents children
  | .text s => s

/-- The texts in several nodes. -/
def contents : List (Node τ α) → List α
  | [] => []
  | child :: rest => child.content ++ contents rest

end

mutual

/-- The way to the first node below this one that satisfies `p`. -/
def Node.find (p : Node τ α → Bool) : Node τ α → Option (List ℕ)
  | .element _ children => findIn p 0 children
  | .text _ => none

/-- The same for children, from an index on. -/
def findIn (p : Node τ α → Bool) : ℕ → List (Node τ α) → Option (List ℕ)
  | _, [] => none
  | i, child :: rest =>
    if p child then some [i]
    else (child.find p).elim (findIn p (i + 1) rest) fun path => some (i :: path)

end

/-- The node has this tag. -/
def Node.hasTag [DecidableEq τ] (tag : τ) : Node τ α → Bool
  | .element t _ => t = tag
  | .text _ => false

/-- The children of a node. -/
def Node.children : Node τ α → List (Node τ α)
  | .element _ children => children
  | .text _ => []

/-- The children are changed. -/
def Node.mapChildren (f : List (Node τ α) → List (Node τ α)) : Node τ α → Node τ α
  | .element tag children => .element tag (f children)
  | .text s => .text s

/-- The node at the end of a way is changed. -/
def Node.modifyAt : List ℕ → (Node τ α → Node τ α) → Node τ α → Node τ α
  | [], f, node => f node
  | i :: path, f, .element tag children => .element tag (children.modify i (Node.modifyAt path f))
  | _ :: _, _, .text s => .text s

variable {p : Node τ α → Bool}

/-! ### Searching -/

theorem findIn_cons_of_none {child : Node τ α} (hp : p child = false) (hfind : child.find p = none) (i : ℕ)
    (rest : List (Node τ α)) : findIn p i (child :: rest) = findIn p (i + 1) rest := by
  rw [findIn, hp, if_neg Bool.false_ne_true, hfind, Option.elim_none]

theorem findIn_cons_of_some {child : Node τ α} {path : List ℕ} (hp : p child = false)
    (hfind : child.find p = some path) (i : ℕ) (rest : List (Node τ α)) :
    findIn p i (child :: rest) = some (i :: path) := by
  rw [findIn, hp, if_neg Bool.false_ne_true, hfind, Option.elim_some]

theorem findIn_append (i : ℕ) (as bs : List (Node τ α)) :
    findIn p i (as ++ bs) = (findIn p i as).or (findIn p (i + as.length) bs) := by
  induction as generalizing i with
  | nil => rfl
  | cons a as ih =>
    rw [List.cons_append, findIn, findIn, ih, List.length_cons, Nat.add_right_comm, Nat.add_assoc]
    split_ifs
    · rfl
    · cases a.find p <;> rfl

/-- The search among nodes of one shape: it ends in the first that has what is looked for. -/
theorem findIn_map {f : β → Node τ α} {q : β → Bool} {path : List ℕ} {xs : List β}
    (hp : ∀ x ∈ xs, p (f x) = false)
    (hfind : ∀ x ∈ xs, (f x).find p = if q x then some path else none) (i : ℕ) :
    findIn p i (xs.map f) = (xs.findIdx? q).map fun j => (i + j) :: path := by
  induction xs generalizing i with
  | nil => rfl
  | cons x xs ih =>
    have hx := hp x List.mem_cons_self
    have hfx := hfind x List.mem_cons_self
    have hrest := ih (fun y hy => hp y (List.mem_cons_of_mem _ hy))
      (fun y hy => hfind y (List.mem_cons_of_mem _ hy)) (i + 1)
    rw [List.map_cons, List.findIdx?_cons]
    by_cases hq : q x = true
    · rw [if_pos hq] at hfx ⊢
      exact findIn_cons_of_some hx hfx i _
    · rw [if_neg hq] at hfx ⊢
      rw [findIn_cons_of_none hx hfx, hrest, Option.map_map]
      congr 1
      funext j
      rw [Function.comp_apply, Nat.add_right_comm, Nat.add_assoc]

theorem findIn_map_none {f : β → Node τ α} {xs : List β} (hp : ∀ x ∈ xs, p (f x) = false)
    (hfind : ∀ x ∈ xs, (f x).find p = none) (i : ℕ) : findIn p i (xs.map f) = none := by
  induction xs generalizing i with
  | nil => rfl
  | cons x xs ih =>
    rw [List.map_cons, findIn_cons_of_none (hp x List.mem_cons_self) (hfind x List.mem_cons_self)]
    exact ih (fun y hy => hp y (List.mem_cons_of_mem _ hy))
      (fun y hy => hfind y (List.mem_cons_of_mem _ hy)) (i + 1)

/-! ### Changing -/

theorem modify_append_cons {as bs : List β} {b : β} {f : β → β} {i : ℕ} (hi : i = as.length) :
    (as ++ b :: bs).modify i f = as ++ f b :: bs := by
  induction as generalizing i with
  | nil =>
    rw [hi]
    rfl
  | cons a as ih =>
    obtain ⟨j, rfl⟩ : ∃ j, i = j + 1 := ⟨as.length, hi⟩
    rw [List.cons_append, List.modify_succ_cons, ih (Nat.succ.inj hi), List.cons_append]

end XmlTree
