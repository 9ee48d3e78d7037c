import Mathlib.Data.List.Nodup
import Mathlib.Data.List.Perm.Basic
import Mathlib.Data.List.Sort

/-!
# Reading a table page by page

A query orders the rows of a table by a relation that may leave ties, which
every query may break in its own way. Pages of a fixed size that are read by
separate queries hold every row once exactly if no page ends inside a group of
tied rows.
-/

namespace RecruFlow.Lib.Paging

variable {α : Type*}

/-- The result orders that `ORDER BY` permits. -/
structure Permitted (before : α → α → Prop) (rows out : List α) : Prop where
  perm : out.Perm rows
  ordered : out.Pairwise before

/-- `LIMIT limit OFFSET k * limit` -/
def page (limit : Nat) (out : List α) (k : Nat) : List α :=
  (out.drop (k * limit)).take limit

/-- The first `n` pages, each from the result of its own query. -/
def pages (limit : Nat) (out : Nat → List α) (n : Nat) : List α :=
  (List.range n).flatMap fun k => page limit (out k) k

variable {limit n k : Nat} {out : List α} {outs : Nat → List α}

theorem take_succ_mul : out.take ((k + 1) * limit) = out.take (k * limit) ++ page limit out k := by
  rw [Nat.add_mul, Nat.one_mul, List.take_add]
  rfl

theorem pages_succ : pages limit outs (n + 1) = pages limit outs n ++ page limit (outs n) n := by
  rw [pages, List.range_succ, List.flatMap_append, List.flatMap_singleton]
  rfl

theorem pages_const : pages limit (fun _ => out) n = out.take (n * limit) := by
  induction n with
  | zero => rw [Nat.zero_mul, List.take_zero]; rfl
  | succ n ih => rw [pages_succ, ih, take_succ_mul]

theorem pages_congr (h : ∀ k < n, outs k = out) : pages limit outs n = out.take (n * limit) := by
  rw [← pages_const]
  exact List.flatMap_congr fun k hk => by rw [h k (List.mem_range.mp hk)]

/-- Pages of orders that agree on what is in each page hold the rows once each. -/
theorem pages_perm (h : ∀ j k, ((outs j).take (k * limit)).Perm (out.take (k * limit))) :
    (pages limit outs n).Perm (out.take (n * limit)) := by
  induction n with
  | zero => simp [pages]
  | succ n ih =>
    have hbelow := h n n
    have hupto := h n (n + 1)
    rw [take_succ_mul, take_succ_mul] at hupto
    have hpage : (page limit (outs n) n).Perm (page limit out n) :=
      (List.perm_append_left_iff _).mp ((hbelow.symm.append_right _).trans hupto)
    rw [pages_succ, take_succ_mul]
    exact ih.append hpage

theorem pages_sublist {m : Nat} (h : m ≤ n) : (pages limit outs m).Sublist (pages limit outs n) := by
  induction n, h using Nat.le_induction with
  | base => exact List.Sublist.refl _
  | succ n _ ih => exact ih.trans (pages_succ ▸ List.sublist_append_left _ _)

section Strict

variable {before : α → α → Prop} {rows : List α}

/-- An order without ties permits one result. -/
theorem Permitted.eq {out' : List α}
    (hanti : ∀ a ∈ rows, ∀ b ∈ rows, before a b → before b a → a = b)
    (h : Permitted before rows out) (h' : Permitted before rows out') : out = out' :=
  (h.perm.trans h'.perm.symm).eq_of_pairwise
    (fun a b ha hb => hanti a (h.perm.subset ha) b (h'.perm.subset hb)) h.ordered h'.ordered

/-- Then the pages are the result, in order. -/
theorem pages_eq (hanti : ∀ a ∈ rows, ∀ b ∈ rows, before a b → before b a → a = b)
    (houts : ∀ k, Permitted before rows (outs k)) (h : Permitted before rows out)
    (hn : rows.length ≤ n * limit) : pages limit outs n = out := by
  rw [pages_congr fun k _ => (houts k).eq hanti h, List.take_of_length_le]
  exact h.perm.length_eq ▸ hn

end Strict

section Swap

variable {before : α → α → Prop} {rows front back : List α} {x y : α}

/-- Two tied neighbours may change places. -/
theorem Permitted.swap  (h : Permitted before rows (front ++ x :: y :: back)) (hyx : before y x) :
    Permitted before rows (front ++ y :: x :: back) := by
  refine ⟨((List.Perm.swap x y back).append_left front).trans h.perm, ?_⟩
  have hordered := h.ordered
  simp only [List.pairwise_append, List.pairwise_cons, List.mem_cons, forall_eq_or_imp] at hordered ⊢
  obtain ⟨hfront, ⟨⟨-, hx⟩, hy, hback⟩, hcross⟩ := hordered
  exact ⟨hfront, ⟨⟨hyx, hy⟩, hx, hback⟩, fun a ha =>
    ⟨(hcross a ha).2.1, (hcross a ha).1, (hcross a ha).2.2⟩⟩

/-- If the two stand on both sides of the end of a page, one order for the pages
before it and the other one for those after it read a row twice. -/
theorem not_nodup_of_swap (hlimit : 0 < limit) (hend : front.length + 1 = k * limit) (hn : k < n)
    (houts : ∀ j < k, outs j = front ++ x :: y :: back)
    (hk : outs k = front ++ y :: x :: back) : ¬ (pages limit outs n).Nodup := by
  intro hnodup
  have hfirst : x ∈ pages limit outs k := by
    rw [pages_congr houts, ← hend]
    exact List.mem_take_iff_getElem.mpr ⟨front.length, by simp, by simp⟩
  have hsecond : x ∈ page limit (outs k) k := by
    rw [page, hk, ← hend, List.drop_append, List.drop_of_length_le (by omega)]
    simp [List.take_cons hlimit]
  have hboth := hnodup.sublist (pages_sublist (Nat.succ_le_of_lt hn))
  rw [pages_succ, List.nodup_append] at hboth
  exact hboth.2.2 x hfirst x hsecond rfl

end Swap

section Ties

variable {before : α → α → Prop} [DecidableRel before] {rows : List α} {t : α}

/-- How many rows come before the ties of `t`. -/
def ahead (before : α → α → Prop) [DecidableRel before] (rows : List α) (t : α) : Nat :=
  rows.countP fun a => ¬ before t a

/-- How many rows come before the ties of `t` or are among them. -/
def upTo (before : α → α → Prop) [DecidableRel before] (rows : List α) (t : α) : Nat :=
  rows.countP fun a => before a t

/-- A page ends inside a group of tied rows. -/
def Splits (before : α → α → Prop) [DecidableRel before] (limit : Nat) (rows : List α) : Prop :=
  ∃ t ∈ rows, ∃ k, ahead before rows t < k * limit ∧ k * limit < upTo before rows t

omit [DecidableRel before] in
/-- What goes with every row before it stands at the front. -/
theorem take_countP {p : α → Bool} (hout : out.Pairwise before)
    (hp : ∀ a b, before a b → p b = true → p a = true) :
    out.take (out.countP p) = out.filter p := by
  induction out with
  | nil => rfl
  | cons a out ih =>
    rw [List.pairwise_cons] at hout
    cases ha : p a with
    | true => rw [List.countP_cons_of_pos ha, List.filter_cons_of_pos ha, List.take_succ_cons,
        ih hout.2]
    | false =>
      have hnone : ∀ b ∈ out, ¬ p b = true := fun b hb hpb => by
        rw [hp a b (hout.1 b hb) hpb] at ha
        exact absurd ha (by decide)
      rw [List.countP_cons_of_neg (by simp [ha]), List.filter_cons_of_neg (by simp [ha]),
        List.countP_eq_zero.mpr hnone, List.take_zero, List.filter_eq_nil_iff.mpr hnone]

section Order

variable [IsTrans α before]

theorem take_upTo (h : Permitted before rows out) :
    out.take (upTo before rows t) = out.filter fun a => before a t := by
  rw [upTo, ← h.perm.countP_eq]
  refine take_countP h.ordered fun a b hab hb => ?_
  exact decide_eq_true (IsTrans.trans a b t hab (of_decide_eq_true hb))

theorem take_ahead (h : Permitted before rows out) :
    out.take (ahead before rows t) = out.filter fun a => ¬ before t a := by
  rw [ahead, ← h.perm.countP_eq]
  refine take_countP h.ordered fun a b hab hb => ?_
  exact decide_eq_true fun hta => of_decide_eq_true hb (IsTrans.trans t a b hta hab)

end Order

variable [IsTrans α before] [Std.Total before]

theorem permitted_insertionSort : Permitted before rows (rows.insertionSort before) :=
  ⟨List.perm_insertionSort before rows, List.pairwise_insertionSort before rows⟩

/-- Where a page ends between groups, what is before its end does not depend on
how ties are broken. -/
theorem take_perm {m : Nat} {out' : List α}
    (hm : ∀ t ∈ rows, ¬ (ahead before rows t < m ∧ m < upTo before rows t))
    (h : Permitted before rows out) (h' : Permitted before rows out') :
    (out'.take m).Perm (out.take m) := by
  have hperm : out'.Perm out := h'.perm.trans h.perm.symm
  rcases Nat.lt_or_ge m out.length with hlt | hge
  · rcases Nat.eq_zero_or_pos m with rfl | hpos
    · simp
    · -- the last row of the page decides what the page has of its group
      obtain ⟨t, ht⟩ : ∃ t, t = out[m - 1] := ⟨_, rfl⟩
      have htm : t ∈ out := ht ▸ List.getElem_mem _
      have hrefl : before t t := (Std.Total.total t t).elim id id
      have hahead : ahead before rows t < m := by
        by_contra hle
        have hmem : out[m - 1] ∈ out.take (ahead before rows t) :=
          List.mem_take_iff_getElem.mpr ⟨m - 1, by omega, rfl⟩
        rw [← ht, take_ahead h, List.mem_filter] at hmem
        exact of_decide_eq_true hmem.2 hrefl
      have hall : ∀ a ∈ out.take m, before a t := by
        intro a ha
        obtain ⟨i, hi, rfl⟩ := List.mem_take_iff_getElem.mp ha
        rcases Nat.lt_or_ge i (m - 1) with hi' | hi'
        · rw [ht]
          exact List.pairwise_iff_getElem.mp h.ordered i (m - 1) _ _ hi'
        · have hlast : i = m - 1 := by omega
          subst hlast
          rwa [← ht]
      have hupTo : m ≤ upTo before rows t := by
        calc m = (out.take m).length := by rw [List.length_take, Nat.min_eq_left hlt.le]
          _ = (out.take m).countP fun a => before a t :=
            (List.countP_eq_length.mpr fun a ha => decide_eq_true (hall a ha)).symm
          _ ≤ out.countP fun a => before a t := (List.take_sublist m out).countP_le
          _ = upTo before rows t := h.perm.countP_eq _
      have hend : m = upTo before rows t := by
        have hnot := hm t (h.perm.subset htm)
        omega
      rw [hend, take_upTo h, take_upTo h']
      exact hperm.filter _
  · rw [List.take_of_length_le hge, List.take_of_length_le (hperm.length_eq ▸ hge)]
    exact hperm

/-- If no page ends inside a group, the pages hold the rows once each. -/
theorem pages_perm_of_not_splits (hno : ¬ Splits before limit rows)
    (houts : ∀ k, Permitted before rows (outs k)) (hn : rows.length ≤ n * limit) :
    (pages limit outs n).Perm rows := by
  have h : Permitted before rows (rows.insertionSort before) := permitted_insertionSort
  have hpages : (pages limit outs n).Perm ((rows.insertionSort before).take (n * limit)) :=
    pages_perm fun j k => take_perm (fun t ht hsplit => hno ⟨t, ht, k, hsplit⟩) h (houts j)
  rw [List.take_of_length_le (h.perm.length_eq ▸ hn)] at hpages
  exact hpages.trans h.perm

omit [Std.Total before] in
/-- The rows on both sides of an end inside a group are tied. -/
theorem exists_tied_neighbours {m : Nat} (h : Permitted before rows out) (hnodup : rows.Nodup)
    (hahead : ahead before rows t < m) (hupTo : m < upTo before rows t) :
    ∃ front x y back, out = front ++ x :: y :: back ∧ front.length + 1 = m ∧ before y x := by
  have hlength : upTo before rows t ≤ out.length := by
    rw [upTo, ← h.perm.countP_eq]
    exact List.countP_le_length
  obtain ⟨i, rfl⟩ : ∃ i, m = i + 1 := ⟨m - 1, by omega⟩
  have hx : i < out.length := by omega
  have hy : i + 1 < out.length := by omega
  have hyt : before out[i + 1] t := by
    have hmem : out[i + 1] ∈ out.take (upTo before rows t) :=
      List.mem_take_iff_getElem.mpr ⟨i + 1, by omega, rfl⟩
    rw [take_upTo h, List.mem_filter] at hmem
    exact of_decide_eq_true hmem.2
  have htx : before t out[i] := by
    by_contra hnot
    have hmem : out[i] ∈ out.take (ahead before rows t) := by
      rw [take_ahead h, List.mem_filter]
      exact ⟨List.getElem_mem _, decide_eq_true hnot⟩
    obtain ⟨j, hj, hji⟩ := List.mem_take_iff_getElem.mp hmem
    have hsame := (List.Nodup.getElem_inj_iff (h.perm.nodup_iff.mpr hnodup)).mp hji
    omega
  refine ⟨out.take i, out[i], out[i + 1], out.drop (i + 2), ?_, ?_, IsTrans.trans _ t _ hyt htx⟩
  · rw [← List.drop_eq_getElem_cons hy, ← List.drop_eq_getElem_cons hx, List.take_append_drop]
  · rw [List.length_take, Nat.min_eq_left hx.le]

/-- If a page ends inside a group, some permitted orders make the pages read a
row twice. -/
theorem exists_pages_not_nodup (hlimit : 0 < limit) (hnodup : rows.Nodup)
    (hsplits : Splits before limit rows) (hn : rows.length ≤ n * limit) :
    ∃ outs : Nat → List α, (∀ k, Permitted before rows (outs k)) ∧
      ¬ (pages limit outs n).Nodup := by
  obtain ⟨t, -, k, hahead, hupTo⟩ := hsplits
  obtain ⟨out, h⟩ : ∃ out, Permitted before rows out := ⟨_, permitted_insertionSort⟩
  obtain ⟨front, x, y, back, hout, hend, hyx⟩ := exists_tied_neighbours h hnodup hahead hupTo
  rw [hout] at h
  have hk : k < n := by
    have hle : upTo before rows t ≤ rows.length := List.countP_le_length
    exact Nat.lt_of_mul_lt_mul_right (hupTo.trans_le (hle.trans hn))
  refine ⟨fun j => if j < k then front ++ x :: y :: back else front ++ y :: x :: back,
    fun j => ?_, ?_⟩
  · dsimp only
    split
    · exact h
    · exact h.swap hyx
  · exact not_nodup_of_swap hlimit hend hk (fun j hj => if_pos hj) (if_neg (Nat.lt_irrefl k))

/-- Pages hold the rows once each, however ties are broken, exactly if no page
ends inside a group. -/
theorem pages_perm_iff (hlimit : 0 < limit) (hnodup : rows.Nodup)
    (hn : rows.length ≤ n * limit) :
    (∀ outs : Nat → List α, (∀ k, Permitted before rows (outs k)) →
      (pages limit outs n).Perm rows) ↔ ¬ Splits before limit rows := by
  constructor
  · intro h hsplits
    obtain ⟨outs, houts, htwice⟩ := exists_pages_not_nodup hlimit hnodup hsplits hn
    exact htwice ((h outs houts).nodup_iff.mpr hnodup)
  · intro hno outs houts
    exact pages_perm_of_not_splits hno houts hn

end Ties

end RecruFlow.Lib.Paging
