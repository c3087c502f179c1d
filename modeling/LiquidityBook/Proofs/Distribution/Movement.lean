import LiquidityBook.Proofs.Distribution.Normalize
import Mathlib.Data.List.Forall2
import Mathlib.Data.Nat.Dist

/-! What is moved when a distribution is made to sum to one. Only the last entries change, entries that are zero stay
zero, and no list that sums to one is nearer. -/
namespace LiquidityBook.Distribution

/-- How far apart two lists are, added up over their entries. -/
def moved (vs ws : List Nat) : Nat := (List.zipWith Nat.dist vs ws).sum

/-- The last entry that is not zero is raised, and nothing else changes. -/
def RaisedLast (deficit : Nat) (vs ws : List Nat) : Prop :=
  ∃ front last zeros, last ≠ 0 ∧ (∀ z ∈ zeros, z = 0) ∧ vs = front ++ last :: zeros ∧
    ws = front ++ (last + deficit) :: zeros

/-- One entry is lowered, those before it stay, and those behind it are zero afterwards. -/
def CutTail (excess : Nat) (vs ws : List Nat) : Prop :=
  ∃ front last back left, left ≤ last ∧ vs = front ++ last :: back ∧
    ws = front ++ left :: List.replicate back.length 0 ∧ last - left + back.sum = excess

/-- What a list becomes when it is made to sum to one. -/
structure Corrected (vs ws : List Nat) : Prop where
  length_eq : ws.length = vs.length
  idle : (∀ v ∈ vs, v = 0) → ws = vs
  raised : 0 < vs.sum → vs.sum ≤ one → RaisedLast (one - vs.sum) vs ws
  cut : one < vs.sum → CutTail (vs.sum - one) vs ws
  whole : vs.sum ≠ 0 → ws.sum = one
  /-- No list that sums to one is nearer. -/
  least : vs.sum ≠ 0 → ∀ us : List Nat, us.length = vs.length → us.sum = one → moved vs ws ≤ moved vs us
  zeros : List.Forall₂ (fun v w => v = 0 → w = 0) vs ws
  settled : normalize ws = ws

variable {deficit excess : Nat} {vs : List Nat}

private theorem moved_cons (v w : Nat) (vs ws : List Nat) :
    moved (v :: vs) (w :: ws) = Nat.dist v w + moved vs ws := rfl

theorem moved_self (vs : List Nat) : moved vs vs = 0 := by
  induction vs with
  | nil => rfl
  | cons v vs ih => rw [moved_cons, Nat.dist_self, ih]

private theorem dist_sum_le_moved {ws : List Nat} (h : ws.length = vs.length) :
    Nat.dist vs.sum ws.sum ≤ moved vs ws := by
  induction vs generalizing ws with
  | nil =>
    rw [List.length_nil, List.length_eq_zero_iff] at h
    rw [h, Nat.dist_self]
    exact Nat.zero_le _
  | cons v vs ih =>
    obtain ⟨w, ws, rfl⟩ := List.exists_cons_of_length_eq_add_one h
    have hle := ih (Nat.succ.inj h)
    have htri := Nat.dist.triangle_inequality (v + vs.sum) (w + vs.sum) (w + ws.sum)
    rw [Nat.dist_add_add_right, Nat.dist_add_add_left] at htri
    rw [List.sum_cons, List.sum_cons, moved_cons]
    exact htri.trans (Nat.add_le_add_left hle _)

/-- No entry is further from its own than the lists are. -/
theorem forall₂_dist_le_moved {ws : List Nat} (h : ws.length = vs.length) :
    List.Forall₂ (fun v w => Nat.dist v w ≤ moved vs ws) vs ws := by
  induction vs generalizing ws with
  | nil =>
    rw [List.length_nil, List.length_eq_zero_iff] at h
    rw [h]
    exact .nil
  | cons v vs ih =>
    obtain ⟨w, ws, rfl⟩ := List.exists_cons_of_length_eq_add_one h
    rw [moved_cons]
    exact .cons (Nat.le_add_right _ _) ((ih (Nat.succ.inj h)).imp fun _ _ hle => hle.trans (Nat.le_add_left _ _))

private theorem moved_topUp (deficit : Nat) (vs : List Nat) :
    moved vs (topUp deficit vs).1 + (topUp deficit vs).2 = deficit := by
  induction vs with
  | nil => exact Nat.zero_add _
  | cons v vs ih =>
    simp only [topUp]
    split
    · rw [moved_cons, Nat.dist_self, Nat.zero_add, ih]
    · rw [moved_cons, Nat.dist_eq_sub_of_le (Nat.le_add_right ..)]
      omega

private theorem moved_trimEnd (excess : Nat) (vs : List Nat) :
    moved vs (trimEnd excess vs).1 + (trimEnd excess vs).2 = excess := by
  induction vs with
  | nil => exact Nat.zero_add _
  | cons v vs ih =>
    simp only [trimEnd]
    rw [moved_cons, Nat.dist_eq_sub_of_le_right (Nat.sub_le ..)]
    omega

private theorem zeros_topUp (deficit : Nat) (vs : List Nat) :
    List.Forall₂ (fun v w => v = 0 → w = 0) vs (topUp deficit vs).1 := by
  induction vs with
  | nil => exact .nil
  | cons v vs ih =>
    simp only [topUp]
    split
    · exact .cons id ih
    · exact .cons (absurd · ‹_›) ih

private theorem zeros_trimEnd (excess : Nat) (vs : List Nat) :
    List.Forall₂ (fun v w => v = 0 → w = 0) vs (trimEnd excess vs).1 := by
  induction vs with
  | nil => exact .nil
  | cons v vs ih => exact .cons (fun hv => by rw [hv, Nat.zero_sub]) ih

private theorem raisedLast_topUp (h : vs.sum ≠ 0) : RaisedLast deficit vs (topUp deficit vs).1 := by
  induction vs with
  | nil => exact absurd rfl h
  | cons v vs ih =>
    simp only [topUp]
    rcases topUp_spec deficit vs with ⟨hz, he⟩ | ⟨hz, _, hl⟩
    · -- Nothing behind is other than zero, so this entry is the last.
      have hv : v ≠ 0 := by
        rw [List.sum_cons] at h
        omega
      rw [he, if_neg hv]
      exact ⟨[], v, vs, hv, List.sum_eq_zero_iff_forall_eq_nat.1 hz, rfl, rfl⟩
    · obtain ⟨front, last, zeros, hlast, hzeros, hvs, hws⟩ := ih hz
      refine ⟨v :: front, last, zeros, hlast, hzeros, by rw [hvs]; rfl, ?_⟩
      rw [hl, Nat.add_zero, ite_self (c := v = 0), hws]
      rfl

private theorem trimEnd_of_sum_le (h : vs.sum ≤ excess) : (trimEnd excess vs).1 = List.replicate vs.length 0 := by
  rw [List.eq_replicate_iff]
  refine ⟨length_trimEnd .., List.sum_eq_zero_iff_forall_eq_nat.1 ?_⟩
  rw [(trimEnd_spec excess vs).1]
  omega

private theorem cutTail_trimEnd (hne : vs ≠ []) (h : excess ≤ vs.sum) : CutTail excess vs (trimEnd excess vs).1 := by
  induction vs with
  | nil => exact absurd rfl hne
  | cons v vs ih =>
    rw [List.sum_cons] at h
    simp only [trimEnd]
    rw [(trimEnd_spec excess vs).2]
    by_cases hle : vs.sum ≤ excess
    · -- The rest is taken whole, and this entry gives what is left.
      rw [trimEnd_of_sum_le hle]
      exact ⟨[], v, vs, v - (excess - vs.sum), Nat.sub_le .., rfl, rfl, by omega⟩
    · have hvs : vs ≠ [] := by
        rintro rfl
        exact hle (Nat.zero_le _)
      obtain ⟨front, last, back, left, hleft, hsplit, hcut, hsum⟩ := ih hvs (by omega)
      refine ⟨v :: front, last, back, left, hleft, by rw [hsplit]; rfl, ?_, hsum⟩
      rw [hcut, show excess - vs.sum = 0 by omega, Nat.sub_zero]
      rfl

/-- A list that is not all zero is moved by the distance of its sum from one. -/
theorem moved_normalize (h : vs.sum ≠ 0) : moved vs (normalize vs) = Nat.dist vs.sum one := by
  rw [normalize_eq, if_neg h]
  split
  · have hmoved := moved_topUp (one - vs.sum) vs
    rcases topUp_spec (one - vs.sum) vs with ⟨hz, _⟩ | ⟨_, _, hl⟩
    · exact absurd hz h
    · rw [Nat.dist_eq_sub_of_le (by omega)]
      omega
  · have hmoved := moved_trimEnd (vs.sum - one) vs
    have hleft := (trimEnd_spec (vs.sum - one) vs).2
    rw [Nat.dist_eq_sub_of_le_right (by omega)]
    omega

theorem corrected_normalize (vs : List Nat) : Corrected vs (normalize vs) where
  length_eq := length_normalize vs
  idle hz := normalize_of_sum_eq_zero (List.sum_eq_zero_iff_forall_eq_nat.2 hz)
  raised hpos hle := by
    have hne : vs.sum ≠ 0 := Nat.pos_iff_ne_zero.1 hpos
    rcases hle.lt_or_eq with hlt | heq
    · rw [normalize_eq, if_neg hne, if_pos hlt]
      exact raisedLast_topUp hne
    · -- Raised by nothing, the list stays as it is.
      obtain ⟨front, last, zeros, hlast, hzeros, hvs, _⟩ := @raisedLast_topUp 0 vs hne
      refine ⟨front, last, zeros, hlast, hzeros, hvs, ?_⟩
      rw [normalize_of_sum_eq_one heq, heq, Nat.sub_self]
      exact hvs
  cut hlt := by
    have hne : vs ≠ [] := by
      rintro rfl
      exact absurd hlt (by decide)
    rw [normalize_eq, if_neg (by omega), if_neg (by omega)]
    exact cutTail_trimEnd hne (Nat.sub_le ..)
  whole h := sum_normalize h
  least h us hlen hsum := by
    rw [moved_normalize h, ← hsum]
    exact dist_sum_le_moved hlen
  zeros := by
    rw [normalize_eq]
    split
    · exact List.forall₂_same.2 fun _ _ => id
    split
    · exact zeros_topUp ..
    · exact zeros_trimEnd ..
  settled := normalize_normalize vs

end LiquidityBook.Distribution
