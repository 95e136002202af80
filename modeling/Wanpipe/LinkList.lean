import Mathlib.Data.List.Nodup
import Mathlib.Logic.Function.Basic
import Mathlib.Tactic.Common

/-! Doubly linked lists of nodes that carry their own links. What a node keeps behind it is the next
node, and in front of it the place that points to it. -/

namespace Wanpipe.LinkList

/-- Where a pointer to a node is kept: the head of the list, or the `next` of a node. -/
inductive Slot (Node : Type)
  | head
  | next (node : Node)

/-- The links in memory. A node whose `prev` is `none` has a null pointer there. -/
structure Links (Node : Type) where
  first : Option Node
  next : Node → Option Node
  prev : Node → Option (Slot Node)

variable {Node : Type}

section Linked

def Links.get (links : Links Node) : Slot Node → Option Node
  | .head => links.first
  | .next node => links.next node

theorem head_ne (node : Node) : Slot.head ≠ .next node := by
  intro same
  cases same

/-- The slot behind some nodes. -/
def slotAfter : Slot Node → List Node → Slot Node
  | slot, [] => slot
  | _, node :: nodes => slotAfter (.next node) nodes

/-- The slots in front of each of some nodes. -/
def slots : Slot Node → List Node → List (Slot Node)
  | _, [] => []
  | slot, node :: nodes => slot :: slots (.next node) nodes

/-- From the slot on each node is pointed to, and knows from where. -/
def Linked (links : Links Node) : Slot Node → List Node → Prop
  | _, [] => True
  | slot, node :: nodes =>
      links.get slot = some node ∧ links.prev node = some slot ∧ Linked links (.next node) nodes

/-- The list holds these nodes, each once. -/
structure Lists (links : Links Node) (nodes : List Node) : Prop where
  nodup : nodes.Nodup
  linked : Linked links .head nodes
  ends : links.get (slotAfter .head nodes) = none

variable {links other : Links Node}

theorem slotAfter_append (slot : Slot Node) (left right : List Node) :
    slotAfter slot (left ++ right) = slotAfter (slotAfter slot left) right := by
  induction left generalizing slot with
  | nil => rfl
  | cons node left ih => exact ih (.next node)

theorem slotAfter_cases (slot : Slot Node) (nodes : List Node) :
    slotAfter slot nodes = slot ∨ ∃ node ∈ nodes, slotAfter slot nodes = .next node := by
  induction nodes generalizing slot with
  | nil => exact Or.inl rfl
  | cons node nodes ih =>
      right
      rcases ih (.next node) with same | ⟨last, member, same⟩
      · exact ⟨node, List.mem_cons_self, same⟩
      · exact ⟨last, List.mem_cons_of_mem node member, same⟩

theorem slots_cases {slot place : Slot Node} {nodes : List Node} (member : place ∈ slots slot nodes) :
    place = slot ∨ ∃ node ∈ nodes, place = .next node := by
  induction nodes generalizing slot with
  | nil => cases member
  | cons node nodes ih =>
      rcases List.mem_cons.mp member with same | later
      · exact Or.inl same
      · right
        rcases ih later with same | ⟨last, inside, same⟩
        · exact ⟨node, List.mem_cons_self, same⟩
        · exact ⟨last, List.mem_cons_of_mem node inside, same⟩

theorem slotAfter_ne {slot : Slot Node} {nodes : List Node} {node : Node}
    (apart : slot ≠ .next node) (fresh : node ∉ nodes) : slotAfter slot nodes ≠ .next node := by
  intro same
  rcases slotAfter_cases slot nodes with first | ⟨last, inside, behind⟩
  · exact apart (first.symm.trans same)
  · cases behind.symm.trans same
    exact fresh inside

theorem slots_ne {slot place : Slot Node} {nodes : List Node} {node : Node}
    (apart : slot ≠ .next node) (fresh : node ∉ nodes) (member : place ∈ slots slot nodes) :
    place ≠ .next node := by
  rintro rfl
  rcases slots_cases member with first | ⟨last, inside, behind⟩
  · exact apart first.symm
  · cases behind
    exact fresh inside

/-- The slot behind some nodes is in front of none of them. -/
theorem slotAfter_not_mem {slot : Slot Node} {nodes : List Node} (nodup : nodes.Nodup)
    (apart : ∀ node ∈ nodes, slot ≠ .next node) : slotAfter slot nodes ∉ slots slot nodes := by
  induction nodes generalizing slot with
  | nil => exact List.not_mem_nil
  | cons node nodes ih =>
      obtain ⟨fresh, rest⟩ := List.nodup_cons.mp nodup
      intro member
      rcases List.mem_cons.mp member with same | later
      · rcases slotAfter_cases (.next node) nodes with first | ⟨last, inside, last_eq⟩
        · exact apart node List.mem_cons_self (same.symm.trans first)
        · exact apart last (List.mem_cons_of_mem node inside) (same.symm.trans last_eq)
      · refine ih rest ?_ later
        intro next inside same
        cases same
        exact fresh inside

theorem linked_append (slot : Slot Node) (left right : List Node) :
    Linked links slot (left ++ right) ↔
      Linked links slot left ∧ Linked links (slotAfter slot left) right := by
  induction left generalizing slot with
  | nil => exact (and_iff_right trivial).symm
  | cons node left ih =>
      rw [List.cons_append, Linked, Linked, slotAfter, ih, and_assoc, and_assoc]

/-- Links that agree in front of the nodes and at their backs link them as well. -/
theorem Linked.transport {slot : Slot Node} {nodes : List Node} (linked : Linked links slot nodes)
    (fronts : ∀ place ∈ slots slot nodes, other.get place = links.get place)
    (backs : ∀ node ∈ nodes, other.prev node = links.prev node) : Linked other slot nodes := by
  induction nodes generalizing slot with
  | nil => trivial
  | cons node nodes ih =>
      obtain ⟨pointed, told, rest⟩ := linked
      refine ⟨?_, ?_, ?_⟩
      · rw [fronts slot List.mem_cons_self, pointed]
      · rw [backs node List.mem_cons_self, told]
      · apply ih rest
        · intro place member
          exact fronts place (List.mem_cons_of_mem slot member)
        · intro later member
          exact backs later (List.mem_cons_of_mem node member)

/-- A list is made of the nodes in front of one, that one and the nodes behind. -/
theorem Lists.split {left right : List Node} {node : Node}
    (lists : Lists links (left ++ node :: right)) :
    Linked links .head left ∧ links.prev node = some (slotAfter .head left) ∧
      Linked links (.next node) right ∧ links.get (slotAfter (.next node) right) = none := by
  obtain ⟨front, _, told, behind⟩ := (linked_append .head left (node :: right)).mp lists.linked
  have ends := lists.ends
  rw [slotAfter_append, slotAfter] at ends
  exact ⟨front, told, behind, ends⟩

/-- What the next of a node points to is the first node behind it. -/
theorem get_linked {slot : Slot Node} {nodes : List Node} (linked : Linked links slot nodes)
    (ends : links.get (slotAfter slot nodes) = none) : links.get slot = nodes.head? := by
  cases nodes with
  | nil => exact ends
  | cons node nodes => exact linked.1

theorem Linked.unique {slot : Slot Node} {left right : List Node}
    (first : Linked links slot left) (firstEnds : links.get (slotAfter slot left) = none)
    (second : Linked links slot right) (secondEnds : links.get (slotAfter slot right) = none) :
    left = right := by
  induction left generalizing slot right with
  | nil => exact (List.head?_eq_none_iff.mp ((get_linked second secondEnds).symm.trans firstEnds)).symm
  | cons node left ih =>
      cases right with
      | nil => cases first.1.symm.trans secondEnds
      | cons other right =>
          cases first.1.symm.trans second.1
          rw [ih first.2.2 firstEnds second.2.2 secondEnds]

/-- The links tell which nodes the list holds. -/
theorem Lists.unique {left right : List Node} (first : Lists links left)
    (second : Lists links right) : left = right :=
  first.linked.unique first.ends second.linked second.ends

end Linked

section Walk

/-- The walk from a node to the one that nothing is behind, over at most so many nodes. -/
def Links.walk (links : Links Node) : Nat → Option Node → Option (Option Node)
  | 0, _ => none
  | _ + 1, none => some none
  | few + 1, some node =>
      match links.next node with
      | some behind => links.walk few (some behind)
      | none => some (some node)

variable {links : Links Node}

theorem walk_last {node : Node} {nodes : List Node} {few : Nat}
    (linked : Linked links (.next node) nodes)
    (ends : links.get (slotAfter (.next node) nodes) = none) (enough : nodes.length < few) :
    ∃ last, links.walk few (some node) = some (some last) ∧
      slotAfter (.next node) nodes = .next last := by
  induction nodes generalizing node few with
  | nil =>
      obtain ⟨more, rfl⟩ := Nat.exists_eq_add_of_lt enough
      have nothing : links.next node = none := ends
      refine ⟨node, ?_, rfl⟩
      rw [List.length_nil, Nat.zero_add, Links.walk, nothing]
  | cons second nodes ih =>
      obtain ⟨pointed, _, rest⟩ := linked
      have behind : links.next node = some second := pointed
      rw [List.length_cons] at enough
      obtain ⟨last, walked, same⟩ := ih rest ends (Nat.lt_sub_of_add_lt enough)
      refine ⟨last, ?_, same⟩
      obtain ⟨more, rfl⟩ := Nat.exists_eq_add_of_lt enough
      rw [Links.walk, behind]
      exact walked

/-- The slot behind the last node, if there is one. -/
def slotBehind : Option Node → Slot Node
  | some last => .next last
  | none => .head

/-- The walk over the whole list ends at its last node. -/
theorem Lists.walk {nodes : List Node} {few : Nat} (lists : Lists links nodes)
    (enough : nodes.length < few) :
    ∃ last, links.walk few links.first = some last ∧ slotBehind last = slotAfter .head nodes := by
  cases nodes with
  | nil =>
      obtain ⟨more, rfl⟩ := Nat.exists_eq_add_of_lt enough
      have empty : links.first = none := lists.ends
      refine ⟨none, ?_, rfl⟩
      rw [empty]
      rfl
  | cons node nodes =>
      obtain ⟨pointed, _, rest⟩ := lists.linked
      have first : links.first = some node := pointed
      obtain ⟨last, walked, same⟩ :=
        walk_last rest lists.ends (Nat.lt_of_succ_lt enough)
      refine ⟨some last, ?_, same.symm⟩
      rw [first]
      exact walked

end Walk

section Change

variable [DecidableEq Node]

def Links.put (links : Links Node) (slot : Slot Node) (node : Option Node) : Links Node :=
  match slot with
  | .head => { links with first := node }
  | .next before => { links with next := Function.update links.next before node }

/-- The node, if there is one, is told where it is pointed from. -/
def Links.back (links : Links Node) (node : Option Node) (slot : Slot Node) : Links Node :=
  match node with
  | some node => { links with prev := Function.update links.prev node (some slot) }
  | none => links

/-- The links of a node are cleared. -/
def Links.clear (links : Links Node) (node : Node) : Links Node :=
  { links with
    next := Function.update links.next node none
    prev := Function.update links.prev node none }

/-- `elm` is put where `slot` points to, in front of what it pointed to. -/
def Links.insert (links : Links Node) (slot : Slot Node) (elm : Node) : Links Node :=
  let behind := links.get slot
  (((links.put (.next elm) behind).back behind (.next elm)).put slot (some elm)).back (some elm) slot

/-- What is behind `elm` is pointed to from where `elm` was. A null `prev` cannot be written
through. -/
def Links.remove (links : Links Node) (elm : Node) : Option (Links Node) :=
  let behind := links.next elm
  (links.prev elm).map fun slot => (links.back behind slot).put slot behind

variable {links : Links Node} {nodes left right : List Node} {elm : Node}

@[simp]
theorem get_put_self (links : Links Node) (slot : Slot Node) (node : Option Node) :
    (links.put slot node).get slot = node := by
  cases slot with
  | head => rfl
  | next before => exact Function.update_self _ _ _

theorem get_put_other {slot place : Slot Node} (links : Links Node) (node : Option Node)
    (apart : place ≠ slot) : (links.put slot node).get place = links.get place := by
  cases slot with
  | head =>
      cases place with
      | head => exact absurd rfl apart
      | next after => rfl
  | next before =>
      cases place with
      | head => rfl
      | next after =>
          apply Function.update_of_ne
          rintro rfl
          exact apart rfl

@[simp]
theorem prev_put (links : Links Node) (slot : Slot Node) (node : Option Node) :
    (links.put slot node).prev = links.prev := by
  cases slot <;> rfl

@[simp]
theorem get_back (links : Links Node) (node : Option Node) (slot place : Slot Node) :
    (links.back node slot).get place = links.get place := by
  cases node <;> cases place <;> rfl

@[simp]
theorem prev_back_self (links : Links Node) (node : Node) (slot : Slot Node) :
    (links.back (some node) slot).prev node = some slot :=
  Function.update_self _ _ _

theorem prev_back_other {target : Option Node} {node : Node} (links : Links Node)
    (slot : Slot Node) (apart : target ≠ some node) :
    (links.back target slot).prev node = links.prev node := by
  cases target with
  | none => rfl
  | some target =>
      apply Function.update_of_ne
      rintro rfl
      exact apart rfl

theorem Lists.clear (lists : Lists links nodes) (fresh : elm ∉ nodes) :
    Lists (links.clear elm) nodes := by
  have kept : ∀ place, place ≠ Slot.next elm → (links.clear elm).get place = links.get place := by
    intro place apart
    cases place with
    | head => rfl
    | next node =>
        apply Function.update_of_ne
        rintro rfl
        exact apart rfl
  refine ⟨lists.nodup, lists.linked.transport ?_ ?_, ?_⟩
  · intro place member
    exact kept place (slots_ne (head_ne elm) fresh member)
  · intro node inside
    apply Function.update_of_ne
    rintro rfl
    exact fresh inside
  · rw [kept _ (slotAfter_ne (head_ne elm) fresh), lists.ends]

/-- A node whose links are cleared cannot be taken off a list. -/
theorem remove_clear (links : Links Node) (elm : Node) : (links.clear elm).remove elm = none := by
  have null : (links.clear elm).prev elm = none := Function.update_self _ _ _
  rw [Links.remove, null]
  rfl

/-- A node that is not in the list is put behind its last. -/
theorem Lists.insert_last (lists : Lists links nodes) (fresh : elm ∉ nodes) :
    Lists (links.insert (slotAfter .head nodes) elm) (nodes ++ [elm]) := by
  have apart : slotAfter .head nodes ≠ .next elm := slotAfter_ne (head_ne elm) fresh
  have get : ∀ place, (links.insert (slotAfter .head nodes) elm).get place =
      ((links.put (.next elm) none).put (slotAfter .head nodes) (some elm)).get place := by
    intro place
    rw [Links.insert, lists.ends, get_back]
    rfl
  have prev : (links.insert (slotAfter .head nodes) elm).prev =
      (links.back (some elm) (slotAfter .head nodes)).prev := by
    rw [Links.insert, lists.ends]
    simp only [Links.back, prev_put]
  have nodup : (nodes ++ [elm]).Nodup :=
    List.nodup_append'.mpr ⟨lists.nodup, List.nodup_singleton elm, by simpa using fresh⟩
  refine ⟨nodup, ?_, ?_⟩
  · rw [linked_append]
    refine ⟨lists.linked.transport ?_ ?_, ?_, ?_, trivial⟩
    · intro place member
      have other : place ≠ slotAfter .head nodes := by
        rintro rfl
        exact slotAfter_not_mem lists.nodup (fun node _ => head_ne node) member
      rw [get, get_put_other _ _ other, get_put_other _ _ (slots_ne (head_ne elm) fresh member)]
    · intro node inside
      rw [prev]
      apply prev_back_other
      intro same
      cases same
      exact fresh inside
    · rw [get, get_put_self]
    · rw [prev, prev_back_self]
  · rw [slotAfter_append, get]
    calc
      ((links.put (.next elm) none).put (slotAfter .head nodes) (some elm)).get (.next elm) =
          (links.put (.next elm) none).get (.next elm) := get_put_other _ _ apart.symm
      _ = none := get_put_self _ _ _

/-- A node of the list is taken out of it. -/
theorem Lists.remove (lists : Lists links (left ++ elm :: right)) :
    ∃ next, links.remove elm = some next ∧ Lists next (left ++ right) := by
  obtain ⟨front, told, behind, ends⟩ := lists.split
  obtain ⟨nodupLeft, nodupRight, disjoint⟩ := List.nodup_append'.mp lists.nodup
  obtain ⟨fresh, nodupRight⟩ := List.nodup_cons.mp nodupRight
  have head : links.next elm = right.head? := get_linked behind ends
  have slot_ne : ∀ node ∈ right, slotAfter .head left ≠ .next node := by
    intro node inside
    apply slotAfter_ne (head_ne node)
    intro earlier
    exact disjoint earlier (List.mem_cons_of_mem elm inside)
  have nodup : (left ++ right).Nodup :=
    List.nodup_append'.mpr ⟨nodupLeft, nodupRight, fun node earlier later =>
      disjoint earlier (List.mem_cons_of_mem elm later)⟩
  refine ⟨(links.back right.head? (slotAfter .head left)).put (slotAfter .head left) right.head?,
    ?_, nodup, ?_, ?_⟩
  · rw [Links.remove, told, head]
    rfl
  · rw [linked_append]
    refine ⟨front.transport ?_ ?_, ?_⟩
    · intro place member
      have other : place ≠ slotAfter .head left := by
        rintro rfl
        exact slotAfter_not_mem nodupLeft (fun node _ => head_ne node) member
      rw [get_put_other _ _ other, get_back]
    · intro node inside
      rw [prev_put]
      apply prev_back_other
      intro same
      exact disjoint inside (List.mem_cons_of_mem elm (List.mem_of_head? same))
    · cases right with
      | nil => trivial
      | cons second right =>
          obtain ⟨_, _, rest⟩ := behind
          obtain ⟨apart, _⟩ := List.nodup_cons.mp nodupRight
          refine ⟨get_put_self _ _ _, ?_, rest.transport ?_ ?_⟩
          · rw [prev_put]
            exact prev_back_self _ _ _
          · intro place member
            have other : place ≠ slotAfter .head left := by
              rintro rfl
              rcases slots_cases member with same | ⟨node, inside, same⟩
              · exact slot_ne second List.mem_cons_self same
              · exact slot_ne node (List.mem_cons_of_mem second inside) same
            rw [get_put_other _ _ other, get_back]
          · intro node inside
            rw [prev_put]
            apply prev_back_other
            rintro ⟨⟩
            exact apart inside
  · rw [slotAfter_append]
    cases right with
    | nil => exact get_put_self _ _ _
    | cons second right =>
        have other : slotAfter (.next second) right ≠ slotAfter .head left := by
          intro same
          rcases slotAfter_cases (.next second) right with first | ⟨last, inside, later⟩
          · exact slot_ne second List.mem_cons_self (same.symm.trans first)
          · exact slot_ne last (List.mem_cons_of_mem second inside) (same.symm.trans later)
        rw [slotAfter, get_put_other _ _ other, get_back]
        exact ends

end Change

end Wanpipe.LinkList
