import Mathlib.Data.List.Nodup
import Mathlib.Data.List.Perm.Subperm
import Mathlib.Logic.Relation

/-! A depth-first search that lists every node after those it leads to. It fails at a node that it
comes back to while that node is under way, and at one that cannot be expanded. -/

namespace DepthFirst

open Relation

variable {ν κ ρ ε : Type*}

structure Search (κ ρ : Type*) where
  visited : List κ
  order : List ρ

def Search.start : Search κ ρ := { visited := [], order := [] }

/-- Nothing but a bound on the levels ends a search with `noLevel`. -/
inductive Stop (ε : Type*)
  | thrown (failure : ε)
  | noLevel
  deriving DecidableEq

section

variable [DecidableEq κ] (key : ν → κ) (expand : ν → Except ε (List ν × ρ)) (cyclic : ν → ε)

def visit : Nat → List κ → Search κ ρ → ν → Except (Stop ε) (Search κ ρ)
  | 0, _, _, _ => .error .noLevel
  | left + 1, inStack, search, node =>
      if key node ∈ search.visited then .ok search
      else if key node ∈ inStack then .error (.thrown (cyclic node))
      else match expand node with
        | .error failure => .error (.thrown failure)
        | .ok (children, item) => do
            let later ← children.foldlM (visit left (key node :: inStack)) search
            return { visited := key node :: later.visited, order := later.order ++ [item] }

/-- Visits the roots, with `left` levels to go. -/
def search (left : Nat) (roots : List ν) : Except (Stop ε) (Search κ ρ) :=
  roots.foldlM (visit key expand cyclic left []) Search.start

end

def Leads (expand : ν → Except ε (List ν × ρ)) (node child : ν) : Prop :=
  ∃ children item, expand node = .ok (children, item) ∧ child ∈ children

/-- What the search throws at a node: it leads back to itself, or it cannot be expanded. -/
def Fails (expand : ν → Except ε (List ν × ρ)) (cyclic : ν → ε) (node : ν) (failure : ε) : Prop :=
  expand node = .error failure ∨ failure = cyclic node ∧ TransGen (Leads expand) node node

/-- Every node of the list stands after those it leads to. -/
def Closed (expand : ν → Except ε (List ν × ρ)) (done : List ν) : Prop :=
  ∀ front node back, done = front ++ node :: back → ∀ child, Leads expand node child →
    child ∈ front

section

variable {expand : ν → Except ε (List ν × ρ)} {cyclic : ν → ε} {done front back : List ν}
  {node other : ν}

theorem closed_nil : Closed expand [] := by
  intro front node back split
  simp at split

theorem Closed.snoc (closed : Closed expand done)
    (children : ∀ child, Leads expand node child → child ∈ done) :
    Closed expand (done ++ [node]) := by
  intro front first back split child leads
  rcases List.eq_nil_or_concat back with rfl | ⟨earlier, last, rfl⟩
  · obtain ⟨rfl, same⟩ := List.append_inj' split rfl
    obtain rfl : node = first := by simpa using same
    exact children child leads
  · have parts : done ++ [node] = (front ++ first :: earlier) ++ [last] := by simpa using split
    exact closed front first earlier (List.append_inj' parts rfl).1 child leads

theorem Closed.earlier (closed : Closed expand done) (split : done = front ++ node :: back)
    (leads : TransGen (Leads expand) node other) : other ∈ front := by
  induction leads with
  | single leads => exact closed front node back split _ leads
  | @tail middle child before leads ih =>
      obtain ⟨first, rest, parts⟩ := List.append_of_mem ih
      have whole : done = first ++ middle :: (rest ++ node :: back) := by simp [split, parts]
      rw [parts]
      exact List.mem_append_left _ (closed first middle _ whole child leads)

theorem Closed.acyclic (closed : Closed expand done) (distinct : done.Nodup)
    (member : node ∈ done) : ¬ TransGen (Leads expand) node node := by
  intro cycle
  obtain ⟨front, back, split⟩ := List.append_of_mem member
  have before := closed.earlier split cycle
  rw [split] at distinct
  exact (List.nodup_append.mp distinct).2.2 node before node List.mem_cons_self rfl

theorem Closed.reaches (closed : Closed expand done) (member : node ∈ done)
    (leads : ReflTransGen (Leads expand) node other) : other ∈ done := by
  induction leads with
  | refl => exact member
  | tail before leads ih =>
      obtain ⟨front, back, split⟩ := List.append_of_mem ih
      have isEarlier := closed front _ back split _ leads
      rw [split]
      exact List.mem_append_left _ isEarlier

end

/-! The nodes that a search may meet: they are told apart by their keys, and finitely many of them
can be expanded. -/

structure Domain (key : ν → κ) (expand : ν → Except ε (List ν × ρ)) (nodes : List ν)
    (holds : ν → Prop) : Prop where
  distinct : ∀ node other, holds node → holds other → key node = key other → node = other
  leads : ∀ node child, holds node → Leads expand node child → holds child
  listed : ∀ node, holds node → ∀ expanded, expand node = .ok expanded → node ∈ nodes

/-- The nodes that are done, in the order in which they came to be. -/
structure Lists (key : ν → κ) (expand : ν → Except ε (List ν × ρ)) (holds : ν → Prop)
    (done : List ν) (search : Search κ ρ) : Prop where
  visited : ∀ node, key node ∈ search.visited ↔ key node ∈ done.map key
  items : done.map (fun node => (expand node).map Prod.snd) = search.order.map Except.ok
  distinct : done.Nodup
  closed : Closed expand done
  met : ∀ node ∈ done, holds node

/-- How a search from the roots may end. -/
def Ends (key : ν → κ) (expand : ν → Except ε (List ν × ρ)) (cyclic : ν → ε) (holds : ν → Prop)
    (inStack : List κ) (done roots : List ν) : Except (Stop ε) (Search κ ρ) → Prop
  | .ok next => ∃ more, Lists key expand holds (done ++ more) next ∧
      (∀ root ∈ roots, root ∈ done ++ more) ∧
      ∀ node ∈ more, key node ∉ inStack ∧
        ∃ root ∈ roots, ReflTransGen (Leads expand) root node
  | .error (.thrown failure) => ∃ root ∈ roots, ∃ node,
      ReflTransGen (Leads expand) root node ∧ Fails expand cyclic node failure
  | .error .noLevel => False

section

variable {key : ν → κ} {expand : ν → Except ε (List ν × ρ)} {cyclic : ν → ε}
  {nodes done : List ν} {holds : ν → Prop} {inStack : List κ} {search : Search κ ρ}

/-- The nodes that are under way lead to the one that is visited, and there is a level for each
that may still come. -/
structure UnderWay (key : ν → κ) (expand : ν → Except ε (List ν × ρ)) (nodes : List ν)
    (holds : ν → Prop) (left : Nat) (inStack : List κ) (node : ν) : Prop where
  met : holds node
  leads : ∀ earlier, holds earlier → key earlier ∈ inStack →
    TransGen (Leads expand) earlier node
  named : inStack ⊆ nodes.map key
  distinct : inStack.Nodup
  levels : nodes.length < left + inStack.length

theorem ends_foldlM {visitNode : Search κ ρ → ν → Except (Stop ε) (Search κ ρ)} {roots : List ν}
    (ends : ∀ root ∈ roots, ∀ done search, Lists key expand holds done search →
      Ends key expand cyclic holds inStack done [root] (visitNode search root)) :
    ∀ done search, Lists key expand holds done search →
      Ends key expand cyclic holds inStack done roots (roots.foldlM visitNode search) := by
  induction roots with
  | nil =>
      intro done search lists
      exact ⟨[], by simpa using lists, by simp, by simp⟩
  | cons root rest ih =>
      intro done search lists
      have first := ends root List.mem_cons_self done search lists
      have later := ih fun other member => ends other (List.mem_cons_of_mem root member)
      rw [List.foldlM_cons]
      cases visited : visitNode search root with
      | error stop =>
          rw [visited] at first
          cases stop with
          | thrown failure =>
              obtain ⟨other, member, node, reached, fails⟩ := first
              obtain rfl := List.mem_singleton.mp member
              exact ⟨other, List.mem_cons_self, node, reached, fails⟩
          | noLevel => exact first
      | ok next =>
          rw [visited] at first
          obtain ⟨more, listed, present, apart⟩ := first
          have second := later (done ++ more) next listed
          simp only [bind, Except.bind]
          cases finished : rest.foldlM visitNode next with
          | error stop =>
              rw [finished] at second
              cases stop with
              | thrown failure =>
                  obtain ⟨other, member, node, reached, fails⟩ := second
                  exact ⟨other, List.mem_cons_of_mem root member, node, reached, fails⟩
              | noLevel => exact second
          | ok last =>
              rw [finished] at second
              obtain ⟨final, listedLast, presentLast, apartLast⟩ := second
              refine ⟨more ++ final, by simpa using listedLast, ?_, ?_⟩
              · intro other member
                rw [← List.append_assoc]
                rcases List.mem_cons.mp member with rfl | isLater
                · exact List.mem_append_left _ (present other (by simp))
                · exact presentLast other isLater
              · intro node member
                rcases List.mem_append.mp member with isEarly | isLate
                · obtain ⟨outside, other, isRoot, reached⟩ := apart node isEarly
                  obtain rfl := List.mem_singleton.mp isRoot
                  exact ⟨outside, other, List.mem_cons_self, reached⟩
                · obtain ⟨outside, other, isRoot, reached⟩ := apartLast node isLate
                  exact ⟨outside, other, List.mem_cons_of_mem root isRoot, reached⟩

theorem UnderWay.child (domain : Domain key expand nodes holds) {left : Nat} {node child : ν}
    {children : List ν} {item : ρ}
    (underWay : UnderWay key expand nodes holds (left + 1) inStack node)
    (isNew : key node ∉ inStack) (expanded : expand node = .ok (children, item))
    (isChild : child ∈ children) :
    UnderWay key expand nodes holds left (key node :: inStack) child where
  met := domain.leads node child underWay.met ⟨children, item, expanded, isChild⟩
  leads := by
    have step : Leads expand node child := ⟨children, item, expanded, isChild⟩
    intro earlier met inStack
    rcases List.mem_cons.mp inStack with same | before
    · rw [domain.distinct earlier node met underWay.met same]
      exact .single step
    · exact (underWay.leads earlier met before).tail step
  named := by
    refine List.cons_subset.mpr ⟨?_, underWay.named⟩
    exact List.mem_map_of_mem (domain.listed node underWay.met _ expanded)
  distinct := List.nodup_cons.mpr ⟨isNew, underWay.distinct⟩
  levels := by
    have levels := underWay.levels
    rw [List.length_cons]
    omega

theorem lists_start : Lists key expand holds [] (Search.start : Search κ ρ) where
  visited node := by simp [Search.start]
  items := rfl
  distinct := List.nodup_nil
  closed := closed_nil
  met node member := by cases member

theorem Lists.expanded {done : List ν} (lists : Lists key expand holds done search) {node : ν}
    (member : node ∈ done) : ∃ expanded, expand node = .ok expanded := by
  have mapped : (expand node).map Prod.snd ∈ done.map fun node => (expand node).map Prod.snd :=
    List.mem_map_of_mem (f := fun node => (expand node).map Prod.snd) member
  rw [lists.items] at mapped
  obtain ⟨item, _, isItem⟩ := List.mem_map.mp mapped
  cases expands : expand node with
  | error failure => simp [expands, Except.map] at isItem
  | ok expanded => exact ⟨expanded, rfl⟩

theorem Lists.finish {node : ν} {children more : List ν}
    {item : ρ} {next : Search κ ρ} (lists : Lists key expand holds done search)
    (isNew : key node ∉ search.visited) (met : holds node)
    (expanded : expand node = .ok (children, item))
    (later : Lists key expand holds (done ++ more) next)
    (present : ∀ child ∈ children, child ∈ done ++ more)
    (apart : ∀ other ∈ more, key other ≠ key node) :
    Lists key expand holds (done ++ (more ++ [node]))
      { visited := key node :: next.visited, order := next.order ++ [item] } where
  visited other := by
    rw [List.mem_cons, later.visited]
    simp only [List.map_append, List.map_cons, List.map_nil, List.mem_append, List.mem_singleton]
    tauto
  items := by
    rw [← List.append_assoc, List.map_append, later.items]
    simp [expanded, Except.map]
  distinct := by
    rw [← List.append_assoc]
    refine later.distinct.append (List.nodup_singleton node) ?_
    rintro other member isNode
    obtain rfl := List.mem_singleton.mp isNode
    rcases List.mem_append.mp member with before | isMore
    · exact isNew ((lists.visited other).mpr (List.mem_map_of_mem before))
    · exact apart other isMore rfl
  closed := by
    rw [← List.append_assoc]
    refine later.closed.snoc ?_
    rintro child ⟨others, otherItem, sameExpanded, isChild⟩
    rw [expanded] at sameExpanded
    cases sameExpanded
    exact present child isChild
  met := by
    intro other member
    rw [← List.append_assoc] at member
    rcases List.mem_append.mp member with before | isNode
    · exact later.met other before
    · rw [List.mem_singleton.mp isNode]
      exact met

variable [DecidableEq κ]

theorem ends_visit (domain : Domain key expand nodes holds) {left : Nat} :
    ∀ {inStack : List κ} {node : ν}, UnderWay key expand nodes holds left inStack node →
      ∀ done search, Lists key expand holds done search →
        Ends key expand cyclic holds inStack done [node]
          (visit key expand cyclic left inStack search node) := by
  induction left with
  | zero =>
      intro inStack node underWay done search lists
      have bound := (underWay.distinct.subperm underWay.named).length_le
      have levels := underWay.levels
      rw [List.length_map] at bound
      omega
  | succ left ih =>
      intro inStack node underWay done search lists
      rw [visit]
      split
      · rename_i isVisited
        obtain ⟨other, isDone, same⟩ := List.mem_map.mp ((lists.visited node).mp isVisited)
        obtain rfl := domain.distinct other node (lists.met other isDone) underWay.met same
        exact ⟨[], by simpa using lists, by simpa using isDone, by simp⟩
      · rename_i isNew
        split
        · rename_i isUnderWay
          exact ⟨node, by simp, node, .refl,
            .inr ⟨rfl, underWay.leads node underWay.met isUnderWay⟩⟩
        · rename_i notUnderWay
          split
          · rename_i failure failed
            exact ⟨node, by simp, node, .refl, .inl failed⟩
          · rename_i children item expanded
            have step : ∀ child ∈ children, Leads expand node child :=
              fun child isChild => ⟨children, item, expanded, isChild⟩
            have ends := ends_foldlM (fun child isChild =>
              ih (underWay.child domain notUnderWay expanded isChild)) done search lists
            cases visited : children.foldlM
                (visit key expand cyclic left (key node :: inStack)) search with
            | error stop =>
                rw [visited] at ends
                cases stop with
                | thrown failure =>
                    obtain ⟨child, isChild, other, reached, fails⟩ := ends
                    exact ⟨node, by simp, other, .head (step child isChild) reached, fails⟩
                | noLevel => exact ends
            | ok next =>
                rw [visited] at ends
                obtain ⟨more, later, present, apart⟩ := ends
                refine ⟨more ++ [node], lists.finish isNew underWay.met expanded later present
                  fun other member same => (apart other member).1 (same ▸ List.mem_cons_self),
                  by simp, ?_⟩
                intro other member
                rcases List.mem_append.mp member with isMore | isNode
                · obtain ⟨outside, child, isChild, reached⟩ := apart other isMore
                  exact ⟨fun inStack => outside (List.mem_cons_of_mem _ inStack), node, by simp,
                    .head (step child isChild) reached⟩
                · obtain rfl := List.mem_singleton.mp isNode
                  exact ⟨notUnderWay, other, by simp, .refl⟩

theorem ends_search (domain : Domain key expand nodes holds) {roots : List ν}
    (met : ∀ root ∈ roots, holds root) {left : Nat} (levels : nodes.length < left) :
    Ends key expand cyclic holds [] [] roots (DepthFirst.search key expand cyclic left roots) :=
  ends_foldlM (fun root isRoot => ends_visit domain
    ⟨met root isRoot, by simp, by simp, List.nodup_nil, by simpa using levels⟩) [] _ lists_start

end

end DepthFirst
