import Mathlib.Data.List.Nodup
import Mathlib.Data.List.Perm.Subperm
import Mathlib.Logic.Relation

/-!
# Depth-first search for a cycle

A walk over a graph given by its successors, with the chain of nodes it is in
and the nodes it is done with. Re-entering the chain is a cycle; a node that is
done is not entered again. `searchAll_iff` says that a walk from every node
with successors gets through exactly when the graph has no cycle, and that fuel
for one more level than there are such nodes is never used up.
-/

namespace Aperio

/-- How a walk ends that does not get through. -/
inductive SearchEnd (α : Type) where
  | cycle (chain : List α)
  | unfinished
deriving Repr, DecidableEq

section

variable {α : Type} [DecidableEq α]

/-- The walk from a node: the nodes that are done after it. -/
def search (next : α → List α) :
    Nat → List α → List α → α → Except (SearchEnd α) (List α)
  | 0, _, _, _ => .error .unfinished
  | fuel + 1, visiting, done, node =>
    if node ∈ done then .ok done
    else if node ∈ visiting then
      .error (.cycle (visiting.drop (visiting.idxOf node) ++ [node]))
    else
      match (next node).foldlM (fun done dep =>
        search next fuel (visiting ++ [node]) done dep) done with
      | .ok done => .ok (node :: done)
      | .error e => .error e

/-- The walk from one node after another. -/
def searchAll (next : α → List α) (fuel : Nat) (order : List α) :
    Except (SearchEnd α) (List α) :=
  order.foldlM (fun done node => search next fuel [] done node) []

end

variable {α : Type} {next : α → List α} {a b : α}

def Edge (next : α → List α) (a b : α) : Prop :=
  b ∈ next a

/-- No cycle is reached from a node. -/
def CycleFree (next : α → List α) (a : α) : Prop :=
  ∀ b, Relation.ReflTransGen (Edge next) a b → ¬Relation.TransGen (Edge next) b b

theorem cycleFree_of_next (h : ∀ b ∈ next a, CycleFree next b) : CycleFree next a := by
  intro b hab hb
  rcases Relation.ReflTransGen.cases_head hab with rfl | ⟨c, hac, hcb⟩
  · obtain ⟨c, hac, hca⟩ := Relation.TransGen.head'_iff.mp hb
    exact h c hac a hca hb
  · exact h c hac b hcb hb

/-- What a walk from some nodes ends with: all of them done and no cycle
reached from what is done, or a cycle. -/
def Searched (next : α → List α) (done nodes : List α) :
    Except (SearchEnd α) (List α) → Prop
  | .ok out => done ⊆ out ∧ nodes ⊆ out ∧ ∀ a ∈ out, CycleFree next a
  | .error (.cycle _) => ∃ a, Relation.TransGen (Edge next) a a
  | .error .unfinished => False

theorem foldlM_searched {walk : List α → α → Except (SearchEnd α) (List α)} {nodes : List α}
    (hwalk : ∀ done, ∀ node ∈ nodes, (∀ a ∈ done, CycleFree next a) →
      Searched next done [node] (walk done node))
    {done : List α} (hdone : ∀ a ∈ done, CycleFree next a) :
    Searched next done nodes (nodes.foldlM walk done) := by
  induction nodes generalizing done with
  | nil => exact ⟨List.Subset.refl _, List.nil_subset _, hdone⟩
  | cons node rest ih =>
      have hfirst := hwalk done node List.mem_cons_self hdone
      rw [List.foldlM_cons]
      cases hstep : walk done node with
      | error e =>
          rw [hstep] at hfirst
          cases e with
          | cycle chain => exact hfirst
          | unfinished => exact hfirst.elim
      | ok mid =>
          rw [hstep] at hfirst
          obtain ⟨hmid, hnode, hfree⟩ := hfirst
          have hrest := ih (fun done n hn => hwalk done n (List.mem_cons_of_mem _ hn)) hfree
          change Searched next done (node :: rest) (rest.foldlM walk mid)
          cases hall : rest.foldlM walk mid with
          | error e =>
              rw [hall] at hrest
              cases e with
              | cycle chain => exact hrest
              | unfinished => exact hrest.elim
          | ok out =>
              rw [hall] at hrest
              obtain ⟨hout, hnodes, hfree⟩ := hrest
              refine ⟨List.Subset.trans hmid hout, ?_, hfree⟩
              exact List.cons_subset.mpr ⟨hout (hnode List.mem_cons_self), hnodes⟩

/-- **A walk from a node**, with fuel for the nodes that are not in the
chain. -/
theorem search_spec [DecidableEq α] {keys : List α} (hkeys : ∀ a, next a ≠ [] → a ∈ keys)
    {fuel : Nat} {visiting done : List α} {node : α}
    (hchain : ∀ v ∈ visiting, Relation.TransGen (Edge next) v node) (hnodup : visiting.Nodup)
    (hsub : visiting ⊆ keys) (hfuel : keys.length < fuel + visiting.length)
    (hdone : ∀ a ∈ done, CycleFree next a) :
    Searched next done [node] (search next fuel visiting done node) := by
  induction fuel generalizing visiting done node with
  | zero =>
      have hle := (hnodup.subperm hsub).length_le
      omega
  | succ fuel ih =>
      rw [search]
      split
      · rename_i hmem
        exact ⟨List.Subset.refl _, List.cons_subset.mpr ⟨hmem, List.nil_subset _⟩, hdone⟩
      split
      · rename_i hmem
        exact ⟨node, hchain node hmem⟩
      rename_i hnot
      have hchildren : Searched next done (next node) ((next node).foldlM (fun done dep =>
          search next fuel (visiting ++ [node]) done dep) done) := by
        refine foldlM_searched (fun done dep hdep hdone => ?_) hdone
        have hkey : node ∈ keys := hkeys node (List.ne_nil_of_mem hdep)
        refine ih ?_ ?_ ?_ ?_ hdone
        · intro v hv
          rcases List.mem_append.mp hv with hv | hv
          · exact (hchain v hv).tail hdep
          · rw [List.mem_singleton.mp hv]
            exact .single hdep
        · refine hnodup.append (List.nodup_singleton node) ?_
          exact List.disjoint_singleton.mpr hnot
        · exact List.append_subset.mpr ⟨hsub, List.cons_subset.mpr ⟨hkey, List.nil_subset _⟩⟩
        · rw [List.length_append, List.length_singleton]
          omega
      cases hresult : (next node).foldlM (fun done dep =>
          search next fuel (visiting ++ [node]) done dep) done with
      | error e =>
          rw [hresult] at hchildren
          cases e with
          | cycle chain => exact hchildren
          | unfinished => exact hchildren.elim
      | ok out =>
          rw [hresult] at hchildren
          obtain ⟨hout, hnodes, hfree⟩ := hchildren
          refine ⟨List.subset_cons_of_subset _ hout,
            List.cons_subset.mpr ⟨List.mem_cons_self, List.nil_subset _⟩, ?_⟩
          refine List.forall_mem_cons.mpr ⟨?_, hfree⟩
          exact cycleFree_of_next fun b hb => hfree b (hnodes hb)

/-- **The walk from every node** gets through exactly when there is no cycle,
and always ends. -/
theorem searchAll_iff [DecidableEq α] {order : List α} {fuel : Nat}
    (horder : ∀ a, next a ≠ [] → a ∈ order) (hfuel : order.length < fuel) :
    ((∃ out, searchAll next fuel order = .ok out) ↔
        ∀ a, ¬Relation.TransGen (Edge next) a a) ∧
      searchAll next fuel order ≠ .error .unfinished := by
  have hspec : Searched next [] order (searchAll next fuel order) := by
    refine foldlM_searched (fun done node _ hdone => ?_) (fun a ha => absurd ha List.not_mem_nil)
    exact search_spec horder (fun v hv => absurd hv List.not_mem_nil) List.nodup_nil
      (List.nil_subset _) hfuel hdone
  cases hresult : searchAll next fuel order with
  | ok out =>
      rw [hresult] at hspec
      refine ⟨iff_of_true ⟨out, rfl⟩ ?_, nofun⟩
      intro a ha
      obtain ⟨b, hab, -⟩ := Relation.TransGen.head'_iff.mp ha
      exact hspec.2.2 a (hspec.2.1 (horder a (List.ne_nil_of_mem hab))) a .refl ha
  | error e =>
      rw [hresult] at hspec
      cases e with
      | cycle chain =>
          obtain ⟨a, ha⟩ := hspec
          refine ⟨iff_of_false nofun fun hnone => hnone a ha, nofun⟩
      | unfinished => exact hspec.elim

end Aperio
