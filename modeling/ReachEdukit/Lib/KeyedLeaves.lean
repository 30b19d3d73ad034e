import ReachEdukit.Lib.XmlTree

/-!
# Children with keys

A record kept in a document is an element whose children are found by their tags: a leaf for a value, an
element for a record inside, several elements of one tag for a list of records. Here are the search for a
child, the change of the children of one tag one after the other, and how both go through a list that is
known child by child.

## Main definitions

* `XmlTree.leaf` — an element with a text
* `XmlTree.child?`, `XmlTree.tagged` — the first child with a tag, and all of them
* `XmlTree.modifyTagged` — the children with a tag are changed, each in its own way
* `XmlTree.modifyFirst` — the first item of a kind is changed

## Main results

* `XmlTree.modifyTagged_ofFn` — a list of records, each changed in its own way
* `XmlTree.tagged_modifyTagged`, `XmlTree.tagged_modifyFirst` — what the children of other tags have to do
  with it: nothing
-/

namespace XmlTree

variable {τ α β : Type*}

/-- An element with a text. -/
def leaf (key : τ) (s : List α) : Node τ α := .element key [.text s]

/-- The first item that satisfies `p` is changed. -/
def modifyFirst (p : β → Bool) (f : β → β) : List β → List β
  | [] => []
  | b :: bs => if p b then f b :: bs else b :: modifyFirst p f bs

section Keyed

variable [DecidableEq τ]

/-- The first child with a tag. -/
def child? (key : τ) (children : List (Node τ α)) : Option (Node τ α) :=
  children.find? fun child => child.hasTag key

/-- The children with a tag. -/
def tagged (key : τ) (children : List (Node τ α)) : List (Node τ α) :=
  children.filter fun child => child.hasTag key

/-- The children with a tag are changed one after the other, each in its own way. -/
def modifyTagged (key : τ) : List (Node τ α → Node τ α) → List (Node τ α) → List (Node τ α)
  | _, [] => []
  | [], children => children
  | f :: fs, child :: rest =>
    if child.hasTag key then f child :: modifyTagged key fs rest
    else child :: modifyTagged key (f :: fs) rest

variable {key : τ} {child : Node τ α} {rest : List (Node τ α)}

@[simp] theorem hasTag_leaf (tag : τ) (s : List α) : (leaf tag s).hasTag key = decide (tag = key) := rfl

@[simp] theorem hasTag_element (tag : τ) (children : List (Node τ α)) :
    (Node.element tag children).hasTag key = decide (tag = key) := rfl

@[simp] theorem hasTag_mapChildren (f : List (Node τ α) → List (Node τ α)) (node : Node τ α) :
    (node.mapChildren f).hasTag key = node.hasTag key := by
  cases node <;> rfl

theorem child?_cons_of_tag (h : child.hasTag key = true) : child? key (child :: rest) = some child :=
  List.find?_cons_of_pos h

theorem child?_cons_of_not (h : child.hasTag key = false) :
    child? key (child :: rest) = child? key rest :=
  List.find?_cons_of_neg (by rw [h]; exact Bool.false_ne_true)

theorem tagged_cons_of_tag (h : child.hasTag key = true) :
    tagged key (child :: rest) = child :: tagged key rest :=
  List.filter_cons_of_pos h

theorem tagged_cons_of_not (h : child.hasTag key = false) :
    tagged key (child :: rest) = tagged key rest :=
  List.filter_cons_of_neg (by rw [h]; exact Bool.false_ne_true)

theorem tagged_append (as bs : List (Node τ α)) : tagged key (as ++ bs) = tagged key as ++ tagged key bs :=
  List.filter_append as bs

theorem tagged_of_forall {children : List (Node τ α)} (h : ∀ child ∈ children, child.hasTag key = true) :
    tagged key children = children :=
  List.filter_eq_self.mpr h

theorem tagged_eq_nil {children : List (Node τ α)} (h : ∀ child ∈ children, child.hasTag key = false) :
    tagged key children = [] := by
  refine List.filter_eq_nil_iff.mpr fun child hmem => ?_
  rw [h child hmem]
  exact Bool.false_ne_true

/-! ### Changing the children of a tag -/

@[simp] theorem modifyTagged_nil (children : List (Node τ α)) : modifyTagged key [] children = children := by
  cases children <;> rfl

variable {f : Node τ α → Node τ α} {fs : List (Node τ α → Node τ α)}

theorem modifyTagged_cons_of_tag (h : child.hasTag key = true) :
    modifyTagged key (f :: fs) (child :: rest) = f child :: modifyTagged key fs rest := by
  rw [modifyTagged, if_pos h]

theorem modifyTagged_cons_of_not (h : child.hasTag key = false) :
    modifyTagged key fs (child :: rest) = child :: modifyTagged key fs rest := by
  cases fs with
  | nil => rw [modifyTagged_nil, modifyTagged_nil]
  | cons f fs => rw [modifyTagged, h, if_neg Bool.false_ne_true]

/-- A list of records, each changed in its own way. -/
theorem modifyTagged_ofFn {n : ℕ} {nodes : Fin n → Node τ α} (h : ∀ i, (nodes i).hasTag key = true)
    (gs : Fin n → Node τ α → Node τ α) :
    modifyTagged key (List.ofFn gs) (List.ofFn nodes) = List.ofFn fun i => gs i (nodes i) := by
  induction n with
  | zero => rfl
  | succ n ih =>
    rw [List.ofFn_succ, List.ofFn_succ, List.ofFn_succ, modifyTagged_cons_of_tag (h 0),
      ih fun i => h i.succ]

/-- The children of other tags have nothing to do with it. -/
theorem tagged_modifyTagged (hfs : ∀ f ∈ fs, ∀ node : Node τ α, (f node).hasTag key = node.hasTag key)
    (children : List (Node τ α)) :
    tagged key (modifyTagged key fs children) = modifyTagged key fs (tagged key children) := by
  induction children generalizing fs with
  | nil => rfl
  | cons child rest ih =>
    rcases htag : child.hasTag key with _ | _
    · rw [modifyTagged_cons_of_not htag, tagged_cons_of_not htag, tagged_cons_of_not htag, ih hfs]
    · cases fs with
      | nil => rw [modifyTagged_nil, modifyTagged_nil]
      | cons f fs =>
        have hf := (hfs f List.mem_cons_self child).trans htag
        rw [modifyTagged_cons_of_tag htag, tagged_cons_of_tag hf, tagged_cons_of_tag htag,
          modifyTagged_cons_of_tag htag, ih fun g hg => hfs g (List.mem_cons_of_mem _ hg)]

/-- The same for the first child of a tag that satisfies `p`. -/
theorem tagged_modifyFirst (hf : ∀ node : Node τ α, (f node).hasTag key = node.hasTag key)
    (p : Node τ α → Bool) (children : List (Node τ α)) :
    tagged key (modifyFirst (fun node => node.hasTag key && p node) f children)
      = modifyFirst p f (tagged key children) := by
  induction children with
  | nil => rfl
  | cons child rest ih =>
    rcases htag : child.hasTag key with _ | _
    · rw [modifyFirst, htag, Bool.false_and, if_neg Bool.false_ne_true, tagged_cons_of_not htag,
        tagged_cons_of_not htag, ih]
    · rw [modifyFirst, htag, Bool.true_and, tagged_cons_of_tag htag, modifyFirst]
      split_ifs
      · rw [tagged_cons_of_tag ((hf child).trans htag)]
      · rw [tagged_cons_of_tag htag, ih]

end Keyed

/-! ### The first item of a kind -/

theorem modifyFirst_map {γ : Type*} {p : γ → Bool} {f : γ → γ} {q : β → Bool} {f' : β → β} {g : β → γ}
    {bs : List β} (hp : ∀ b ∈ bs, p (g b) = q b) (hf : ∀ b ∈ bs, f (g b) = g (f' b)) :
    modifyFirst p f (bs.map g) = (modifyFirst q f' bs).map g := by
  induction bs with
  | nil => rfl
  | cons b bs ih =>
    rw [List.map_cons, modifyFirst, modifyFirst, hp b List.mem_cons_self]
    split_ifs
    · rw [hf b List.mem_cons_self, List.map_cons]
    · rw [List.map_cons, ih (fun c hc => hp c (List.mem_cons_of_mem _ hc))
        fun c hc => hf c (List.mem_cons_of_mem _ hc)]

/-- Where the items of a list are of different kinds, the first of a kind is the only one. -/
theorem modifyFirst_eq_modify {p : β → Bool} {f : β → β} {bs : List β} {i : ℕ}
    (h : ∀ j b, bs[j]? = some b → (p b = true ↔ j = i)) : modifyFirst p f bs = bs.modify i f := by
  induction bs generalizing i with
  | nil => simp [modifyFirst]
  | cons b bs ih =>
    rw [modifyFirst]
    cases i with
    | zero =>
      rw [if_pos ((h 0 b rfl).mpr rfl)]
      rfl
    | succ i =>
      rw [if_neg fun hp => absurd ((h 0 b rfl).mp hp) (Nat.succ_ne_zero i).symm, List.modify_succ_cons, ih]
      intro j c hj
      rw [h (j + 1) c hj]
      exact Nat.succ_inj

end XmlTree
