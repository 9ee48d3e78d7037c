import Mathlib.Algebra.Order.BigOperators.Group.List
import Mathlib.Algebra.Order.Field.Basic
import Mathlib.Algebra.Order.Group.Abs
import Mathlib.Data.List.SplitBy
import Mathlib.Data.List.Sort
import Mathlib.Tactic.Linarith

/-!
# Clusters of sorted values

Sorted values are chained into clusters: a value that is at most a tolerance
above the one before it joins its cluster. The clusters are then farther apart
than the tolerance, and whatever is chained to a member is in its cluster.
-/

namespace RecruFlow.Lib.Clusters

section Runs

variable {α : Type*} {r : α → α → Bool} {a b : α} {l g : List α} {gs : List (List α)}

/-- The first run starts with the first element. -/
theorem splitBy_cons_eq : ∃ g gs, (a :: l).splitBy r = (a :: g) :: gs := by
  obtain ⟨run, runs, hruns⟩ :=
    List.exists_cons_of_ne_nil ((List.splitBy_ne_nil (r := r)).mpr (List.cons_ne_nil a l))
  have hne : run ≠ [] := List.ne_nil_of_mem_splitBy (hruns ▸ List.mem_cons_self)
  obtain ⟨a', g, rfl⟩ := List.exists_cons_of_ne_nil hne
  have hflat := List.flatten_splitBy r (a :: l)
  rw [hruns, List.flatten_cons, List.cons_append] at hflat
  rw [List.head_eq_of_cons_eq hflat] at hruns
  exact ⟨g, runs, hruns⟩

theorem splitBy_cons_of_not (h : r a b = false) :
    (a :: b :: l).splitBy r = [a] :: (b :: l).splitBy r :=
  List.splitBy_append_cons (l := [a]) l (by simpa using h)

theorem splitBy_cons_of (h : r a b = true) (hl : (b :: l).splitBy r = (b :: g) :: gs) :
    (a :: b :: l).splitBy r = (a :: b :: g) :: gs := by
  obtain ⟨hflat, hnil, hchain, hcut⟩ := List.splitBy_eq_iff.mp hl
  rw [List.mem_cons, not_or] at hnil
  refine List.splitBy_eq_iff.mpr ⟨congrArg (a :: ·) hflat, ?_, ?_, ?_⟩
  · simpa using hnil.2
  · intro m hm
    rcases List.mem_cons.mp hm with rfl | hm
    · exact List.isChain_cons_cons.mpr ⟨h, hchain _ List.mem_cons_self⟩
    · exact hchain m (.tail _ hm)
  · rw [List.isChain_cons] at hcut ⊢
    refine ⟨fun next hnext => ?_, hcut.2⟩
    obtain ⟨hne, hnext', hgap⟩ := hcut.1 next hnext
    exact ⟨List.cons_ne_nil _ _, hnext', by rwa [List.getLast_cons hne]⟩

end Runs

section Chaining

variable {α : Type*} [AddCommGroup α] [LinearOrder α] [IsOrderedAddMonoid α]

def clusters (tolerance : α) (values : List α) : List (List α) :=
  values.splitBy fun last x => x - last ≤ tolerance

variable {tolerance : α} {values cluster : List α}

section Members

omit [IsOrderedAddMonoid α]

theorem flatten_clusters : (clusters tolerance values).flatten = values :=
  List.flatten_splitBy _ values

theorem ne_nil_of_mem (hcluster : cluster ∈ clusters tolerance values) : cluster ≠ [] :=
  List.ne_nil_of_mem_splitBy hcluster

theorem sublist_of_mem (hcluster : cluster ∈ clusters tolerance values) :
    cluster.Sublist values := by
  have h := List.sublist_flatten_of_mem hcluster
  rwa [flatten_clusters] at h

/-- Each member of a cluster is close to the one before it. -/
theorem isChain_of_mem (hcluster : cluster ∈ clusters tolerance values) :
    cluster.IsChain fun last x => x - last ≤ tolerance :=
  (List.isChain_of_mem_splitBy hcluster).imp fun _ _ h => of_decide_eq_true h

end Members

/-- The members of the upper cluster are farther up than the tolerance. -/
def Apart (tolerance : α) (lower upper : List α) : Prop :=
  ∀ x ∈ lower, ∀ y ∈ upper, tolerance < y - x

theorem pairwise_apart (hsorted : values.Pairwise (· ≤ ·)) :
    (clusters tolerance values).Pairwise (Apart tolerance) := by
  have hchain : (clusters tolerance values).IsChain _ :=
    List.isChain_getLast_head_splitBy _ values
  have hflatten : (clusters tolerance values).flatten.Pairwise (· ≤ ·) := by
    rw [flatten_clusters]
    exact hsorted
  obtain ⟨hinner, houter⟩ := List.pairwise_flatten.mp hflatten
  clear hflatten
  generalize clusters tolerance values = groups at *
  induction groups with
  | nil => exact List.Pairwise.nil
  | cons lower rest ih =>
    rw [List.pairwise_cons] at houter
    have hrest := ih hchain.tail (fun group hgroup => hinner group (.tail _ hgroup)) houter.2
    refine List.pairwise_cons.mpr ⟨fun upper hupper x hx y hy => ?_, hrest⟩
    cases rest with
    | nil => exact absurd hupper List.not_mem_nil
    | cons next rest =>
      obtain ⟨hlower, hnext, hgap⟩ := (List.isChain_cons_cons.mp hchain).1
      have hx' : x ≤ lower.getLast hlower :=
        (hinner lower List.mem_cons_self).rel_getLast hx
      have hy' : next.head hnext ≤ y := by
        rcases List.mem_cons.mp hupper with rfl | hlater
        · exact (hinner _ (.tail _ List.mem_cons_self)).rel_head hy
        · exact (List.pairwise_cons.mp houter.2).1 upper hlater _ (List.head_mem hnext) y hy
      exact (not_le.mp (of_decide_eq_false hgap)).trans_le (sub_le_sub hy' hx')

section Close

variable {x y : α} (hsorted : values.Pairwise (· ≤ ·))
  (hcluster : cluster ∈ clusters tolerance values)

include hsorted hcluster

/-- What is not in a cluster is apart from its members. -/
theorem split_of_mem : ∃ before after, values = before ++ (cluster ++ after) ∧
    Apart tolerance before cluster ∧ Apart tolerance cluster after := by
  obtain ⟨before, after, hgroups⟩ := List.append_of_mem hcluster
  have hpairwise : (clusters tolerance values).Pairwise (Apart tolerance) := pairwise_apart hsorted
  rw [hgroups, List.pairwise_append, List.pairwise_cons] at hpairwise
  obtain ⟨-, ⟨hafter, -⟩, hbefore⟩ := hpairwise
  refine ⟨before.flatten, after.flatten, ?_, ?_, ?_⟩
  · rw [← List.flatten_cons, ← List.flatten_append, ← hgroups, flatten_clusters]
  · intro x hx y hy
    obtain ⟨lower, hlower, hx⟩ := List.mem_flatten.mp hx
    exact hbefore lower hlower cluster List.mem_cons_self x hx y hy
  · intro x hx y hy
    obtain ⟨upper, hupper, hy⟩ := List.mem_flatten.mp hy
    exact hafter upper hupper x hx y hy

theorem mem_of_close (hx : x ∈ cluster) (hy : y ∈ values) (hle : x ≤ y)
    (hclose : y - x ≤ tolerance) : y ∈ cluster := by
  obtain ⟨before, after, rfl, hbefore, hafter⟩ := split_of_mem hsorted hcluster
  rcases List.mem_append.mp hy with hy | hy
  · have hnonneg : 0 ≤ tolerance := (sub_nonneg.mpr hle).trans hclose
    exact absurd (hbefore y hy x hx) (not_lt.mpr ((sub_nonpos.mpr hle).trans hnonneg))
  · rcases List.mem_append.mp hy with hy | hy
    · exact hy
    · exact absurd (hafter x hx y hy) (not_lt.mpr hclose)

/-- A cluster has all the occurrences of its members. -/
theorem count_of_mem (htolerance : 0 ≤ tolerance) (hx : x ∈ cluster) :
    values.count x = cluster.count x := by
  obtain ⟨before, after, rfl, hbefore, hafter⟩ := split_of_mem hsorted hcluster
  have hself : ¬ tolerance < x - x := by
    rw [sub_self]
    exact not_lt.mpr htolerance
  have hbefore' : before.count x = 0 :=
    List.count_eq_zero.mpr fun h => hself (hbefore x h x hx)
  have hafter' : after.count x = 0 :=
    List.count_eq_zero.mpr fun h => hself (hafter x hx x h)
  rw [List.count_append, List.count_append, hbefore', hafter', Nat.zero_add, Nat.add_zero]

/-- What is chained to a member is in the cluster. -/
theorem subset_of_chain {chain : List α} (hx : x ∈ cluster) (hvalues : chain ⊆ values)
    (hchain : (x :: chain).Pairwise (· ≤ ·))
    (hclose : (x :: chain).IsChain fun last x => x - last ≤ tolerance) : chain ⊆ cluster := by
  induction chain generalizing x with
  | nil => exact List.nil_subset _
  | cons y chain ih =>
    rw [List.pairwise_cons] at hchain
    obtain ⟨hxy, hclose⟩ := List.isChain_cons_cons.mp hclose
    have hy : y ∈ cluster := mem_of_close hsorted hcluster hx (hvalues List.mem_cons_self)
      (hchain.1 y List.mem_cons_self) hxy
    have hrest : chain ⊆ cluster :=
      ih hy (fun z hz => hvalues (.tail _ hz)) hchain.2 hclose
    exact List.cons_subset.mpr ⟨hy, hrest⟩

end Close

/-- A chain of values lies in one cluster. -/
theorem chain_subperm (hsorted : values.Pairwise (· ≤ ·)) (htolerance : 0 ≤ tolerance)
    {chain : List α} (hvalues : chain.Subperm values) (hne : chain ≠ [])
    (hchain : chain.Pairwise (· ≤ ·))
    (hclose : chain.IsChain fun last x => x - last ≤ tolerance) :
    ∃ cluster ∈ clusters tolerance values, chain.Subperm cluster := by
  cases chain with
  | nil => exact absurd rfl hne
  | cons x chain =>
    have hx : x ∈ (clusters tolerance values).flatten := by
      rw [flatten_clusters]
      exact hvalues.subset List.mem_cons_self
    obtain ⟨cluster, hcluster, hx⟩ := List.mem_flatten.mp hx
    have hmem : x :: chain ⊆ cluster := List.cons_subset.mpr
      ⟨hx, subset_of_chain hsorted hcluster hx
        (fun y hy => hvalues.subset (.tail _ hy)) hchain hclose⟩
    refine ⟨cluster, hcluster, List.subperm_ext_iff.mpr fun y hy => ?_⟩
    rw [← count_of_mem hsorted hcluster htolerance (hmem hy)]
    exact List.subperm_ext_iff.mp hvalues y hy

end Chaining

section Average

variable {α : Type*} [Field α] [LinearOrder α] [IsStrictOrderedRing α]

def average (values : List α) : α :=
  values.sum / values.length

variable {values : List α} {a : α}

theorem length_pos_of_ne_nil (hne : values ≠ []) : (0 : α) < values.length :=
  Nat.cast_pos.mpr (List.length_pos_of_ne_nil hne)

theorem le_average (hne : values ≠ []) (h : ∀ x ∈ values, a ≤ x) : a ≤ average values := by
  rw [average, le_div_iff₀ (length_pos_of_ne_nil hne), mul_comm, ← nsmul_eq_mul]
  exact List.card_nsmul_le_sum values a h

theorem average_le (hne : values ≠ []) (h : ∀ x ∈ values, x ≤ a) : average values ≤ a := by
  rw [average, div_le_iff₀ (length_pos_of_ne_nil hne), mul_comm, ← nsmul_eq_mul]
  exact List.sum_le_card_nsmul values a h

/-- Values that are all at least their average are all equal to it. -/
theorem eq_average (h : ∀ x ∈ values, average values ≤ x) : ∀ x ∈ values, x = average values := by
  intro x hx
  have hne : values ≠ [] := List.ne_nil_of_mem hx
  have hsum : values.sum = x + (values.erase x).sum := (List.perm_cons_erase hx).sum_eq
  have hrest : (values.erase x).length • average values ≤ (values.erase x).sum :=
    List.card_nsmul_le_sum _ _ fun y hy => h y (List.mem_of_mem_erase hy)
  have hlength : values.length = (values.erase x).length + 1 := (List.perm_cons_erase hx).length_eq
  have htotal : values.length • average values = values.sum := by
    rw [nsmul_eq_mul, average, mul_div_cancel₀ _ (length_pos_of_ne_nil hne).ne']
  rw [hlength, succ_nsmul] at htotal
  have hle : x ≤ average values := by linarith
  exact le_antisymm hle (h x hx)

/-- A lower cluster has the smaller average. -/
theorem average_lt_of_apart {tolerance : α} (htolerance : 0 < tolerance) {lower upper : List α}
    (hlower : lower ≠ []) (hupper : upper ≠ []) (h : Apart tolerance lower upper) :
    average lower < average upper := by
  have hstep : average lower + tolerance ≤ average upper := by
    refine le_average hupper fun y hy => ?_
    have hy' : average lower ≤ y - tolerance :=
      average_le hlower fun x hx => by linarith [h x hx y hy]
    linarith
  linarith

end Average

end RecruFlow.Lib.Clusters
