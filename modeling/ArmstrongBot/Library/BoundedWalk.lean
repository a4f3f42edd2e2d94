import Mathlib.Logic.Relation
import Mathlib.Data.List.Basic
import Mathlib.Logic.Function.Basic

/-! A depth-first walk that gives up below a given number of levels, and walks nothing twice. Nodes
are told apart by their keys; the depth counts before the keys do. -/

namespace BoundedWalk

open Relation

variable {ν κ : Type*}

section

variable [DecidableEq κ] (key : ν → κ) (next : ν → List ν)

/-- The keys that are walked once the node is, or `none` where the levels do not suffice. -/
def walk : Nat → List κ → ν → Option (List κ)
  | 0, _, _ => none
  | left + 1, walked, node =>
      if key node ∈ walked then some walked
      else (next node).foldlM (walk left) (key node :: walked)

end

/-- A chain of `links` links through nodes with different keys, none of them seen. -/
def Chain (key : ν → κ) (next : ν → List ν) : Nat → List κ → ν → Prop
  | 0, seen, node => key node ∉ seen
  | links + 1, seen, node =>
      key node ∉ seen ∧ ∃ child ∈ next node, Chain key next links (key node :: seen) child

/-- Such a chain whose last node leads on. -/
def Overlong (key : ν → κ) (next : ν → List ν) : Nat → List κ → ν → Prop
  | 0, seen, node => key node ∉ seen ∧ next node ≠ []
  | links + 1, seen, node =>
      key node ∉ seen ∧ ∃ child ∈ next node, Overlong key next links (key node :: seen) child

/-- At most `links` links lead from one node to the other. -/
def Within (next : ν → List ν) : Nat → ν → ν → Prop
  | 0, node, other => node = other
  | links + 1, node, other => node = other ∨ ∃ child ∈ next node, Within next links child other

variable {key : ν → κ} {next : ν → List ν} {node other : ν} {links : Nat} {seen walked : List κ}

theorem Chain.overlong (chain : Chain key next (links + 1) seen node) :
    Overlong key next links seen node := by
  induction links generalizing seen node with
  | zero =>
      obtain ⟨isNew, child, isChild, _⟩ := chain
      exact ⟨isNew, List.ne_nil_of_mem isChild⟩
  | succ links ih =>
      obtain ⟨isNew, child, isChild, later⟩ := chain
      exact ⟨isNew, child, isChild, ih later⟩

theorem Within.refl (next : ν → List ν) (links : Nat) (node : ν) : Within next links node node := by
  cases links with
  | zero => rfl
  | succ links => exact .inl rfl

theorem Within.reaches (within : Within next links node other) :
    ReflTransGen (fun node child => child ∈ next node) node other := by
  induction links generalizing node with
  | zero =>
      obtain rfl : node = other := within
      exact .refl
  | succ links ih =>
      rcases within with rfl | ⟨child, isChild, later⟩
      · exact .refl
      · exact .head isChild (ih later)

theorem Within.transfer {μ : Type*} {otherNext : μ → List μ} {same : ν → μ → Prop}
    (children : ∀ node view, same node view → ∀ child ∈ next node,
      ∃ match_ ∈ otherNext view, same child match_)
    {view : μ} (isSame : same node view) (within : Within next links node other) :
    ∃ last, same other last ∧ Within otherNext links view last := by
  induction links generalizing node view with
  | zero =>
      obtain rfl : node = other := within
      exact ⟨view, isSame, rfl⟩
  | succ links ih =>
      rcases within with rfl | ⟨child, isChild, later⟩
      · exact ⟨view, isSame, .inl rfl⟩
      · obtain ⟨match_, isMatch, sameChild⟩ := children node view isSame child isChild
        obtain ⟨last, sameLast, within⟩ := ih sameChild later
        exact ⟨last, sameLast, .inr ⟨match_, isMatch, within⟩⟩

/-- What a walk from some roots adds: keys of nodes near a root, and of all their children. -/
structure Adds (key : ν → κ) (next : ν → List ν) (left : Nat) (roots : List ν)
    (walked later : List κ) : Prop where
  keeps : walked ⊆ later
  meets : ∀ root ∈ roots, key root ∈ later
  near : ∀ found ∈ later, found ∉ walked → ∃ root ∈ roots, ∃ node, key node = found ∧
    Within next left root node ∧ ∀ child ∈ next node, key child ∈ later

theorem adds_walked {left : Nat} (isWalked : key node ∈ walked) :
    Adds key next left [node] walked walked where
  keeps := List.Subset.refl _
  meets := by simpa using isWalked
  near found member isNew := absurd member isNew

variable [DecidableEq κ]

theorem adds_foldlM {visit : List κ → ν → Option (List κ)} {left : Nat} {roots : List ν}
    (adds : ∀ root ∈ roots, ∀ walked later, visit walked root = some later →
      Adds key next left [root] walked later) :
    ∀ walked later, roots.foldlM visit walked = some later →
      Adds key next left roots walked later := by
  induction roots with
  | nil =>
      intro walked later done
      obtain rfl : walked = later := by simpa using done
      exact ⟨List.Subset.refl _, by simp, fun found member isNew => absurd member isNew⟩
  | cons root rest ih =>
      intro walked later done
      rw [List.foldlM_cons, Option.bind_eq_bind, Option.bind_eq_some_iff] at done
      obtain ⟨middle, visited, rest_done⟩ := done
      have first := adds root List.mem_cons_self walked middle visited
      have second := ih (fun other member => adds other (List.mem_cons_of_mem root member)) middle
        later rest_done
      refine ⟨List.Subset.trans first.keeps second.keeps, ?_, ?_⟩
      · intro other member
        rcases List.mem_cons.mp member with rfl | isRest
        · exact second.keeps (first.meets other (by simp))
        · exact second.meets other isRest
      · intro found member isNew
        by_cases isMiddle : found ∈ middle
        · obtain ⟨other, isRoot, node, isFound, within, children⟩ :=
            first.near found isMiddle isNew
          obtain rfl := List.mem_singleton.mp isRoot
          exact ⟨other, List.mem_cons_self, node, isFound, within,
            fun child isChild => second.keeps (children child isChild)⟩
        · obtain ⟨other, isRest, node, isFound, within, children⟩ :=
            second.near found member isMiddle
          exact ⟨other, List.mem_cons_of_mem root isRest, node, isFound, within, children⟩

theorem adds_walk {left : Nat} : ∀ walked later node,
    walk key next (left + 1) walked node = some later →
      Adds key next left [node] walked later := by
  induction left with
  | zero =>
      intro walked later node done
      rw [walk] at done
      split at done
      · rename_i isWalked
        obtain rfl := Option.some.inj done
        exact adds_walked isWalked
      · cases children : next node with
        | nil =>
            rw [children] at done
            obtain rfl : key node :: walked = later := by simpa using done
            refine ⟨List.subset_cons_self _ _, by simp, ?_⟩
            intro found member isNew
            rcases List.mem_cons.mp member with rfl | before
            · exact ⟨node, by simp, node, rfl, rfl, by simp [children]⟩
            · exact absurd before isNew
        | cons child rest =>
            rw [children, List.foldlM_cons] at done
            simp [walk] at done
  | succ left ih =>
      intro walked later node done
      rw [walk] at done
      split at done
      · rename_i isWalked
        obtain rfl := Option.some.inj done
        exact adds_walked isWalked
      · have adds := adds_foldlM (fun root _ walked later done => ih walked later root done) _ _ done
        refine ⟨fun found member => adds.keeps (List.mem_cons_of_mem _ member),
          by simpa using adds.keeps List.mem_cons_self, ?_⟩
        intro found member isNew
        by_cases isNode : found = key node
        · exact ⟨node, by simp, node, isNode.symm, .inl rfl, adds.meets⟩
        · obtain ⟨child, isChild, other, isFound, within, children⟩ :=
            adds.near found member (by simp [isNode, isNew])
          exact ⟨node, by simp, other, isFound, .inr ⟨child, isChild, within⟩, children⟩

theorem foldlM_isSome {roots : List ν}
    (visits : ∀ root ∈ roots, ∀ walked, seen ⊆ walked →
      ∃ later, walk key next (links + 1) walked root = some later) (isSeen : seen ⊆ walked) :
    ∃ later, roots.foldlM (walk key next (links + 1)) walked = some later := by
  induction roots generalizing walked with
  | nil => exact ⟨walked, rfl⟩
  | cons root rest ih =>
      obtain ⟨middle, visited⟩ := visits root List.mem_cons_self walked isSeen
      have keeps := (adds_walk _ _ _ visited).keeps
      rw [List.foldlM_cons, visited]
      exact ih (fun other member => visits other (List.mem_cons_of_mem root member))
        (List.Subset.trans isSeen keeps)

/-- Where no chain is too long, the levels suffice. -/
theorem walk_isSome (short : ¬ Overlong key next links seen node) (isSeen : seen ⊆ walked) :
    ∃ later, walk key next (links + 1) walked node = some later := by
  induction links generalizing seen node walked with
  | zero =>
      rw [walk]
      split
      · exact ⟨_, rfl⟩
      · rename_i isNew
        have ends : next node = [] := by
          by_contra leads
          exact short ⟨fun member => isNew (isSeen member), leads⟩
        exact ⟨_, by rw [ends]; rfl⟩
  | succ links ih =>
      rw [walk]
      split
      · exact ⟨_, rfl⟩
      · rename_i isNew
        refine foldlM_isSome (fun child isChild walked keeps => ih ?_ keeps)
          (List.cons_subset_cons _ isSeen)
        intro overlong
        exact short ⟨fun member => isNew (isSeen member), child, isChild, overlong⟩

/-- A chain that is too long and goes through the first child of each node. -/
def Straight (key : ν → κ) (next : ν → List ν) : Nat → List κ → ν → Prop
  | 0, seen, node => key node ∉ seen ∧ next node ≠ []
  | links + 1, seen, node =>
      key node ∉ seen ∧ ∃ child rest, next node = child :: rest ∧
        Straight key next links (key node :: seen) child

theorem walk_straight (straight : Straight key next links walked node) :
    walk key next (links + 1) walked node = none := by
  induction links generalizing walked node with
  | zero =>
      obtain ⟨isNew, leads⟩ := straight
      obtain ⟨child, rest, children⟩ := List.exists_cons_of_ne_nil leads
      rw [walk, if_neg isNew, children, List.foldlM_cons, walk]
      rfl
  | succ links ih =>
      obtain ⟨isNew, child, rest, children, later⟩ := straight
      rw [walk, if_neg isNew, children, List.foldlM_cons, ih later]
      rfl

section

omit [DecidableEq κ]

theorem Straight.congr {other : ν → List ν}
    (agree : ∀ node, key node ∉ seen → other node = next node)
    (straight : Straight key next links seen node) : Straight key other links seen node := by
  induction links generalizing seen node with
  | zero => exact ⟨straight.1, by rw [agree node straight.1]; exact straight.2⟩
  | succ links ih =>
      obtain ⟨isNew, child, rest, children, later⟩ := straight
      refine ⟨isNew, child, rest, (agree node isNew).trans children, ih ?_ later⟩
      exact fun node isNew => agree node fun member => isNew (List.mem_cons_of_mem _ member)

/-- A chain that is too long is the first one in some order of the children. -/
theorem Overlong.straight (overlong : Overlong key next links seen node) :
    ∃ other : ν → List ν, (∀ node, (other node).Perm (next node)) ∧
      Straight key other links seen node := by
  classical
  induction links generalizing seen node with
  | zero => exact ⟨next, fun node => .refl _, overlong⟩
  | succ links ih =>
      obtain ⟨isNew, child, isChild, later⟩ := overlong
      obtain ⟨order, sameChildren, straight⟩ := ih later
      refine ⟨Function.update order node (child :: (next node).erase child), ?_, isNew, child,
        (next node).erase child, Function.update_self .., ?_⟩
      · intro other
        by_cases isNode : other = node
        · rw [isNode, Function.update_self]
          exact (List.perm_cons_erase isChild).symm
        · rw [Function.update_of_ne isNode]
          exact sameChildren other
      · refine straight.congr fun other isOther => Function.update_of_ne ?_ _ _
        rintro rfl
        exact isOther List.mem_cons_self

theorem Straight.map {μ : Type*} {otherKey : μ → κ} {otherNext : μ → List μ} (view : ν → μ)
    (sameKey : ∀ node, otherKey (view node) = key node)
    (sameNext : ∀ node, otherNext (view node) = (next node).map view)
    (straight : Straight key next links seen node) :
    Straight otherKey otherNext links seen (view node) := by
  induction links generalizing seen node with
  | zero =>
      refine ⟨by rw [sameKey]; exact straight.1, ?_⟩
      rw [sameNext]
      simpa using straight.2
  | succ links ih =>
      obtain ⟨isNew, child, rest, children, later⟩ := straight
      refine ⟨by rw [sameKey]; exact isNew, view child, rest.map view, ?_, ?_⟩
      · rw [sameNext, children, List.map_cons]
      · rw [sameKey]
        exact ih later

theorem Overlong.transfer {μ : Type*} {otherKey : μ → κ} {otherNext : μ → List μ}
    {same : ν → μ → Prop} (sameKey : ∀ node other, same node other → otherKey other = key node)
    (children : ∀ node other, same node other → ∀ child ∈ next node,
      ∃ match_ ∈ otherNext other, same child match_)
    {other : μ} (isSame : same node other) (overlong : Overlong key next links seen node) :
    Overlong otherKey otherNext links seen other := by
  induction links generalizing seen node other with
  | zero =>
      obtain ⟨isNew, leads⟩ := overlong
      obtain ⟨child, isChild⟩ := List.exists_mem_of_ne_nil _ leads
      obtain ⟨match_, isMatch, _⟩ := children node other isSame child isChild
      exact ⟨by rw [sameKey node other isSame]; exact isNew, List.ne_nil_of_mem isMatch⟩
  | succ links ih =>
      obtain ⟨isNew, child, isChild, later⟩ := overlong
      obtain ⟨match_, isMatch, sameChild⟩ := children node other isSame child isChild
      refine ⟨by rw [sameKey node other isSame]; exact isNew, match_, isMatch, ?_⟩
      rw [sameKey node other isSame]
      exact ih sameChild later

end

end BoundedWalk
