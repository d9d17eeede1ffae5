import TrafficMeter.Proofs.Store.Calls

/-!
Samples merged into an empty table. Identities do not mix, and what the rows of one hold second by
second is what its samples held, whichever of them were merged into the same row.
-/

namespace TrafficMeter.Store

def Sample.amount (s : Sample) : ℕ × ℕ := (s.uplink, s.downlink)

theorem Sample.bytes_row {s : Sample} (h : Storable s.amount) : s.row.bytes = s.amount :=
  Prod.ext (Cell.bytes_ofCount_of_le h.1) (Cell.bytes_ofCount_of_le h.2)

theorem Sample.moved_rows {samples : List Sample} (h : ∀ s ∈ samples, Storable s.amount) :
    moved (samples.map Sample.row) = (samples.map Sample.amount).sum := by
  induction samples with
  | nil => rfl
  | cons s rest ih =>
    have hrest := ih fun x hx => h x (List.mem_cons_of_mem s hx)
    rw [List.map_cons, moved_cons, hrest, Sample.bytes_row (h s List.mem_cons_self)]
    simp

section Merged

variable {posts : List Sample} {identity : String}

def amountsOf (posts : List Sample) (identity : String) (test : ℤ → Bool) : ℕ × ℕ :=
  ((posts.filter fun x => decide (x.identity = identity) && test x.ts).map Sample.amount).sum

theorem amount_le_amountsOf {x : Sample} (hx : x ∈ posts) (hid : x.identity = identity) :
    x.amount ≤ amountsOf posts identity fun ts => decide (ts = x.ts) := by
  apply List.le_sum_of_mem
  apply List.mem_map_of_mem
  simp [hx, hid]

/-- Once merged into an empty table, the samples of an identity hold for each second what they held
before, as long as no second leaves the range of the column. -/
theorem moved_merged (fits : ∀ second,
      Storable (amountsOf posts identity fun ts => decide (ts = second))) :
    (∀ r ∈ (posts.map Sample.row).foldl merge [], r.id = identity → r.Whole) ∧
      ∀ test : ℤ → Bool, moved (((posts.map Sample.row).foldl merge []).filter fun r =>
        decide (r.id = identity) && test r.ts) = amountsOf posts identity test := by
  have hmoved : ∀ test : ℤ → Bool, moved (((posts.map Sample.row).filter (·.id = identity)).filter
      fun r => test r.ts) = amountsOf posts identity test := by
    intro test
    rw [List.filter_filter, List.filter_map, Sample.moved_rows]
    · exact congrArg (fun l => (List.map Sample.amount l).sum)
        (List.filter_congr fun x _ => Bool.and_comm _ _)
    · intro x hx
      obtain ⟨hin, hp⟩ := List.mem_filter.mp hx
      rw [Function.comp_apply, Bool.and_eq_true] at hp
      exact (fits x.ts).mono (amount_le_amountsOf hin (of_decide_eq_true hp.2))
  -- other identities may leave the range, so the rows of this one are merged by themselves
  have hfits : ∀ k, Storable (movedAt (fun key => key = k) [] +
      movedAt (fun key => key = k) ((posts.map Sample.row).filter (·.id = identity))) := by
    rintro ⟨id, second⟩
    rw [movedAt_nil, zero_add]
    refine (fits second).mono ?_
    rw [← hmoved, movedAt, ← filter_filter_of_imp]
    · exact moved_filter_le _ _
    · intro r _ hk
      exact decide_eq_true (congrArg Prod.snd (of_decide_eq_true hk))
  obtain ⟨hwhole, hmerged⟩ := @foldl_merge_within [] _ List.nodup_nil (List.forall_mem_nil _)
    (fun r hr => Sample.rows_whole posts r (List.mem_filter.mp hr).1) hfits
  have hid : ∀ r s : Row, r.key = s.key → decide (r.id = identity) = decide (s.id = identity) := by
    intro r s hkey
    rw [show r.id = s.id from congrArg Prod.fst hkey]
  have htable := filter_foldl_merge hid [] (posts.map Sample.row)
  constructor
  · intro r hr hid
    apply hwhole
    rw [← List.filter_nil, ← htable]
    exact List.mem_filter.mpr ⟨hr, decide_eq_true hid⟩
  · intro test
    have hone := hmerged fun key => test key.2
    rw [movedAt_nil, zero_add] at hone
    rw [← hmoved test]
    refine Eq.trans (congrArg moved ?_) hone
    rw [← List.filter_nil, ← htable, List.filter_filter]
    exact List.filter_congr fun r _ => Bool.and_comm _ _

end Merged

theorem amountsOf_turns {π : Type} {turns : List π} {posts : π → List Sample} {second : π → ℤ}
    {identity : String} {credit : π → ℕ × ℕ} (hts : ∀ p, ∀ x ∈ posts p, x.ts = second p)
    (hcredit : ∀ p, (((posts p).filter (·.identity = identity)).map Sample.amount).sum = credit p)
    (test : ℤ → Bool) :
    amountsOf (turns.reverse.flatMap posts) identity test =
      ((turns.filter fun p => test (second p)).map credit).sum := by
  unfold amountsOf
  induction turns with
  | nil => rfl
  | cons p rest ih =>
    rw [List.reverse_cons, List.flatMap_append, List.flatMap_singleton, List.filter_append,
      List.map_append, List.sum_append, ih]
    by_cases hp : test (second p) = true
    · have hown : ((posts p).filter fun x => decide (x.identity = identity) && test x.ts) =
          (posts p).filter (·.identity = identity) := by
        apply List.filter_congr
        intro x hx
        rw [hts p x hx, hp, Bool.and_true]
      rw [hown, hcredit, List.filter_cons, if_pos hp, List.map_cons, List.sum_cons, add_comm]
    · have hnone : ((posts p).filter fun x => decide (x.identity = identity) && test x.ts) = [] := by
        rw [List.filter_eq_nil_iff]
        intro x hx
        rw [hts p x hx]
        simp [hp]
      rw [hnone, List.filter_cons, if_neg hp]
      exact add_zero _

theorem Storable.part {π : Type} {turns : List π} {credit : π → ℕ × ℕ}
    (h : Storable (turns.map credit).sum) (p : π → Bool) :
    Storable ((turns.filter p).map credit).sum :=
  h.mono ((List.filter_sublist.map credit).sum_le_sum fun _ _ => bot_le)

end TrafficMeter.Store
