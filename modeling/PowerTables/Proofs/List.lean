import Mathlib.Data.List.Forall2
import Mathlib.Data.List.Nodup
import PowerTables.Proofs.Operation

/-!
# Lists

Facts about lists that the tables are built on: an entry found by its key, repeated entries
taken out, maps that cannot fail, and the entries at the positions that satisfy a condition.

## Main definitions

* `InFirstOrder` : the order of first occurrences.
* `pick` : the entries of a list at the positions that satisfy a condition.

## Main results

* `find?_key_eq_some_iff`, `eraseP_key_eq_filter` : where the keys are apart, the entry of a key.
* `inFirstOrder_eraseDups` : repeated entries are taken out behind the first one.
* `pick_eq_filter` : picking by a condition on the entries.
* `find?_reverse_eq_some_iff` : the last entry that satisfies a condition.
-/

namespace PowerTables

/-! ### Keys -/

/-- Where the keys are apart, the entry found for a key is the only one that has it. -/
theorem find?_key_eq_some_iff {α κ : Type} [BEq κ] [LawfulBEq κ] {key : α → κ} {l : List α}
    (h : (l.map key).Nodup) {k : κ} {a : α} :
    l.find? (key · == k) = some a ↔ a ∈ l ∧ key a = k := by
  constructor
  · intro hfind
    exact ⟨List.mem_of_find?_eq_some hfind, by simpa using List.find?_some hfind⟩
  · rintro ⟨hmem, rfl⟩
    obtain ⟨b, hb⟩ : ∃ b, l.find? (key · == key a) = some b := by
      rw [← Option.isSome_iff_exists, List.find?_isSome]
      exact ⟨a, hmem, by simp⟩
    have hkey : key b = key a := by simpa using List.find?_some hb
    rw [hb, List.inj_on_of_nodup_map h (List.mem_of_find?_eq_some hb) hmem hkey]

/-- Where the entries are made for keys, the entry found for a key is the one made for it. -/
theorem find?_filterMap_key {α κ : Type} [BEq κ] [LawfulBEq κ] {key : α → κ}
    {make : κ → Option α} (hmake : ∀ k a, make k = some a → key a = k) (keys : List κ) (k : κ) :
    (keys.filterMap make).find? (key · == k) = if keys.contains k then make k else none := by
  induction keys with
  | nil => rfl
  | cons k' keys ih =>
    rw [List.contains_cons]
    cases hk' : make k' with
    | none =>
      rw [List.filterMap_cons_none hk', ih]
      by_cases heq : k = k'
      · subst heq
        simp [hk']
      · simp [heq]
    | some a =>
      obtain rfl := hmake k' a hk'
      rw [List.filterMap_cons_some hk']
      by_cases heq : k = key a
      · subst heq
        simp [hk']
      · rw [List.find?_cons_of_neg (by simpa using Ne.symm heq), ih]
        simp [heq]

/-- Where the keys are apart, to take out the first entry of a key is to take out all of them. -/
theorem eraseP_key_eq_filter {α κ : Type} [BEq κ] [LawfulBEq κ] {key : α → κ} {l : List α}
    (h : (l.map key).Nodup) (k : κ) :
    l.eraseP (key · == k) = l.filter (key · != k) := by
  induction l with
  | nil => rfl
  | cons a l ih =>
    rw [List.map_cons, List.nodup_cons] at h
    by_cases ha : key a = k
    · have hrest : ∀ b ∈ l, (key b != k) = true := by
        intro b hb
        have hne : key b ≠ k := fun heq =>
          h.1 (List.mem_map.mpr ⟨b, hb, heq.trans ha.symm⟩)
        simpa using hne
      rw [List.eraseP_cons_of_pos (by simpa using ha), List.filter_cons_of_neg (by simp [ha]),
        List.filter_eq_self.mpr hrest]
    · rw [List.eraseP_cons_of_neg (by simpa using ha), List.filter_cons_of_pos (by simpa using ha),
        ih h.2]

theorem nodup_eraseDups {α : Type} [BEq α] [LawfulBEq α] (l : List α) : l.eraseDups.Nodup := by
  induction hn : l.length using Nat.strongRecOn generalizing l with
  | ind n ih =>
    cases l with
    | nil => simp
    | cons a l =>
      have hlt : (l.filter fun b => !b == a).length < n := by
        have := List.length_filter_le (fun b => !b == a) l
        rw [← hn, List.length_cons]
        omega
      rw [List.eraseDups_cons, List.nodup_cons]
      exact ⟨by simp, ih _ hlt _ rfl⟩

theorem eraseDups_eq_self {α : Type} [BEq α] [LawfulBEq α] {l : List α} (h : l.Nodup) :
    l.eraseDups = l := by
  induction l with
  | nil => rfl
  | cons a l ih =>
    rw [List.nodup_cons] at h
    have hrest : l.filter (fun b => !b == a) = l := List.filter_eq_self.mpr fun b hb => by
      simpa using fun heq : b = a => h.1 (heq ▸ hb)
    rw [List.eraseDups_cons, hrest, ih h.2]

/-! ### First occurrences -/

/-- The entries of a list are apart, and follow the order in which they first occur in another
one. -/
def InFirstOrder {α : Type} [BEq α] (l firsts : List α) : Prop :=
  firsts.Pairwise fun a b => l.idxOf a < l.idxOf b

section FirstOrder

variable {α : Type} [BEq α] [LawfulBEq α] {l firsts : List α} {p : α → Bool}

omit [LawfulBEq α] in
theorem InFirstOrder.nodup (h : InFirstOrder l firsts) : firsts.Nodup :=
  List.Pairwise.imp (fun hlt heq => Nat.ne_of_lt hlt (congrArg l.idxOf heq)) h

/-- Entries that satisfy a condition stay in order when those that do not are taken out. -/
theorem idxOf_filter_lt_iff {a b : α} (ha : p a = true) (hb : p b = true) :
    (l.filter p).idxOf a < (l.filter p).idxOf b ↔ l.idxOf a < l.idxOf b := by
  induction l with
  | nil => simp
  | cons c l ih =>
    by_cases hc : p c = true
    · rw [List.filter_cons_of_pos hc, List.idxOf_cons, List.idxOf_cons, List.idxOf_cons,
        List.idxOf_cons]
      cases hca : c == a <;> cases hcb : c == b <;> simp [ih]
    · have hne {d : α} (hd : p d = true) : (c == d) = false :=
        beq_false_of_ne fun heq => hc (heq ▸ hd)
      rw [List.filter_cons_of_neg hc, List.idxOf_cons, List.idxOf_cons, hne ha, hne hb, ih]
      simp

theorem InFirstOrder.of_filter (h : InFirstOrder (l.filter p) firsts)
    (hfirsts : ∀ a ∈ firsts, p a = true) : InFirstOrder l firsts :=
  List.Pairwise.imp_of_mem
    (fun ha hb => (idxOf_filter_lt_iff (hfirsts _ ha) (hfirsts _ hb)).mp) h

theorem inFirstOrder_eraseDups (l : List α) : InFirstOrder l l.eraseDups := by
  induction hn : l.length using Nat.strongRecOn generalizing l with
  | ind n ih =>
    cases l with
    | nil => simp [InFirstOrder]
    | cons a l =>
      have hlt : (l.filter fun b => !b == a).length < n := by
        have := List.length_filter_le (fun b => !b == a) l
        rw [← hn, List.length_cons]
        omega
      have hne : ∀ b ∈ (l.filter fun b => !b == a).eraseDups, b ≠ a := by
        intro b hb
        rw [List.mem_eraseDups, List.mem_filter] at hb
        simpa using hb.2
      have hlater : ∀ b ∈ (l.filter fun b => !b == a).eraseDups,
          (a :: l).idxOf b = l.idxOf b + 1 := fun b hb => by
        rw [List.idxOf_cons, beq_false_of_ne (hne b hb).symm, cond_false]
      have hrest := InFirstOrder.of_filter (ih _ hlt _ rfl) fun b hb => by simpa using hne b hb
      rw [List.eraseDups_cons, InFirstOrder, List.pairwise_cons]
      refine ⟨fun b hb => ?_, List.Pairwise.imp_of_mem (fun hb hc hbc => ?_) hrest⟩
      · rw [List.idxOf_cons_self, hlater b hb]
        exact Nat.succ_pos _
      · rw [hlater _ hb, hlater _ hc]
        exact Nat.succ_lt_succ hbc

end FirstOrder

/-! ### Maps that can fail -/

section MapM

variable {α β ε : Type} {f : α → Except ε β} {l : List α}

theorem mapM_cons_eq_ok {a : α} {l' : List β} (h : (a :: l).mapM f = .ok l') :
    ∃ b rest, f a = .ok b ∧ l.mapM f = .ok rest ∧ l' = b :: rest := by
  rw [List.mapM_cons] at h
  obtain ⟨b, hb, h⟩ := bind_eq_ok.mp h
  obtain ⟨rest, hrest, h⟩ := bind_eq_ok.mp h
  exact ⟨b, rest, hb, hrest, (Except.ok.inj h).symm⟩

theorem exists_mapM (h : ∀ a ∈ l, ∃ b, f a = .ok b) : ∃ l', l.mapM f = .ok l' := by
  induction l with
  | nil => exact ⟨[], rfl⟩
  | cons a l ih =>
    obtain ⟨b, hb⟩ := h a List.mem_cons_self
    obtain ⟨rest, hrest⟩ := ih fun a' ha' => h a' (List.mem_cons_of_mem a ha')
    exact ⟨b :: rest, by rw [List.mapM_cons, hb, hrest]; rfl⟩

theorem mem_of_mapM {l' : List β} (h : l.mapM f = .ok l') {b : β} :
    b ∈ l' ↔ ∃ a ∈ l, f a = .ok b := by
  induction l generalizing l' with
  | nil =>
    obtain rfl : [] = l' := Except.ok.inj h
    simp
  | cons a l ih =>
    obtain ⟨b', rest, hb', hrest, rfl⟩ := mapM_cons_eq_ok h
    rw [List.mem_cons, ih hrest]
    simp [hb', eq_comm]

theorem eq_map_of_mapM {g : α → β} {l' : List β} (h : l.mapM f = .ok l')
    (hg : ∀ a b, a ∈ l → f a = .ok b → b = g a) : l' = l.map g := by
  induction l generalizing l' with
  | nil => exact (Except.ok.inj h).symm
  | cons a l ih =>
    obtain ⟨b, rest, hb, hrest, rfl⟩ := mapM_cons_eq_ok h
    rw [List.map_cons, hg a b List.mem_cons_self hb,
      ih hrest fun a' b' ha' => hg a' b' (List.mem_cons_of_mem a ha')]

/-- A map that does not fail gives the same without the reasons for its failures. -/
theorem mapM_toOption {l' : List β} (h : l.mapM f = .ok l') :
    l.mapM (fun a => (f a).toOption) = some l' := by
  induction l generalizing l' with
  | nil =>
    obtain rfl := Except.ok.inj h
    rfl
  | cons a l ih =>
    obtain ⟨b, rest, hb, hrest, rfl⟩ := mapM_cons_eq_ok h
    rw [List.mapM_cons, toOption_eq_some_iff.mpr hb, ih hrest]
    rfl

/-- A map that fails does so at one of the entries. -/
theorem mapM_eq_error {e : ε} (h : l.mapM f = .error e) : ∃ a ∈ l, f a = .error e := by
  induction l with
  | nil => cases h
  | cons a l ih =>
    rw [List.mapM_cons] at h
    rcases bind_eq_error.mp h with ha | ⟨b, -, h⟩
    · exact ⟨a, List.mem_cons_self, ha⟩
    · rcases bind_eq_error.mp h with hrest | ⟨rest, -, h⟩
      · obtain ⟨a', ha', he⟩ := ih hrest
        exact ⟨a', List.mem_cons_of_mem a ha', he⟩
      · cases h

/-- A fold that fails does so at one of the entries. -/
theorem foldlM_eq_error {g : β → α → Except ε β} {b : β} {e : ε}
    (h : l.foldlM g b = .error e) : ∃ b', ∃ a ∈ l, g b' a = .error e := by
  induction l generalizing b with
  | nil => cases h
  | cons a l ih =>
    rw [List.foldlM_cons] at h
    rcases bind_eq_error.mp h with ha | ⟨b', -, h⟩
    · exact ⟨b, a, List.mem_cons_self, ha⟩
    · obtain ⟨b'', a', ha', he⟩ := ih h
      exact ⟨b'', a', List.mem_cons_of_mem a ha', he⟩

theorem forM_eq_ok_iff {f : α → Except ε Unit} :
    l.forM f = .ok () ↔ ∀ a ∈ l, f a = .ok () := by
  induction l with
  | nil => exact ⟨fun _ _ => nofun, fun _ => rfl⟩
  | cons b l ih =>
    rw [List.forall_mem_cons, ← ih]
    exact bind_eq_ok.trans ⟨fun ⟨_, hb, hrest⟩ => ⟨hb, hrest⟩, fun ⟨hb, hrest⟩ => ⟨_, hb, hrest⟩⟩

theorem exists_of_forall₂ {R : α → β → Prop} {l' : List β} (h : List.Forall₂ R l l') {a : α}
    (ha : a ∈ l) : ∃ b ∈ l', R a b := by
  induction h with
  | nil => cases ha
  | @cons a' b' l l' hab _ ih =>
    rcases List.mem_cons.mp ha with rfl | ha
    · exact ⟨b', List.mem_cons_self, hab⟩
    · obtain ⟨b, hb, hrel⟩ := ih ha
      exact ⟨b, List.mem_cons_of_mem b' hb, hrel⟩

theorem exists_forall₂ {R : α → β → Prop} (h : ∀ a ∈ l, ∃ b, R a b) :
    ∃ l', List.Forall₂ R l l' := by
  induction l with
  | nil => exact ⟨[], .nil⟩
  | cons a l ih =>
    obtain ⟨b, hab⟩ := h a List.mem_cons_self
    obtain ⟨l', hrest⟩ := ih fun a' ha' => h a' (List.mem_cons_of_mem a ha')
    exact ⟨b :: l', .cons hab hrest⟩

theorem map_eq_map_of_forall₂ {γ : Type} {g : α → γ} {g' : β → γ} {l' : List β}
    (h : List.Forall₂ (fun a b => g a = g' b) l l') : l.map g = l'.map g' := by
  rwa [← List.forall₂_eq_eq_eq, List.forall₂_map_left_iff, List.forall₂_map_right_iff]

theorem exists_append_of_forall₂ {R : α → β → Prop} {before after : List α} {a : α} {l' : List β}
    (h : List.Forall₂ R (before ++ a :: after) l') :
    ∃ pre b post, l' = pre ++ b :: post ∧ List.Forall₂ R before pre ∧ R a b ∧
      List.Forall₂ R after post := by
  induction before generalizing l' with
  | nil =>
    obtain ⟨b, post, hab, hpost, rfl⟩ := List.forall₂_cons_left_iff.mp h
    exact ⟨[], b, post, rfl, .nil, hab, hpost⟩
  | cons a' before ih =>
    obtain ⟨b', rest, hab', hrest, rfl⟩ := List.forall₂_cons_left_iff.mp h
    obtain ⟨pre, b, post, rfl, hpre, hab, hpost⟩ := ih hrest
    exact ⟨b' :: pre, b, post, rfl, .cons hab' hpre, hab, hpost⟩

/-- A map that can fail gives a list when it gives each of its entries. -/
theorem mapM_eq_some_iff {f : α → Option β} {l' : List β} :
    l.mapM f = some l' ↔ List.Forall₂ (fun a b => f a = some b) l l' := by
  induction l generalizing l' with
  | nil => simp [eq_comm]
  | cons a l ih =>
    rw [List.mapM_cons, List.forall₂_cons_left_iff, Option.bind_eq_bind, Option.bind_eq_some_iff]
    refine exists_congr fun b => ?_
    rw [exists_and_left, Option.bind_eq_bind, Option.bind_eq_some_iff]
    exact and_congr_right fun _ =>
      exists_congr fun rest => and_congr ih (Option.some_inj.trans eq_comm)

/-- A map succeeds exactly if it does so at every entry. -/
theorem exists_mapM_iff : (∃ l', l.mapM f = .ok l') ↔ ∀ a ∈ l, ∃ b, f a = .ok b := by
  refine ⟨?_, exists_mapM⟩
  rintro ⟨l', h⟩ a ha
  obtain ⟨b, -, hb⟩ := exists_of_forall₂ (mapM_eq_some_iff.mp (mapM_toOption h)) ha
  exact ⟨b, toOption_eq_some_iff.mp hb⟩

end MapM

/-! ### Entries in the order of some positions -/

section Positions

variable {α : Type} {l : List α} {positions : List Nat}

theorem getElem?_filterMap_positions (h : ∀ p ∈ positions, p < l.length) (q : Nat) :
    (positions.filterMap (l[·]?))[q]? = (positions[q]?).bind (l[·]?) := by
  induction positions generalizing q with
  | nil => rfl
  | cons p positions ih =>
    have hp : l[p]? = some _ := List.getElem?_eq_getElem (h p List.mem_cons_self)
    rw [List.filterMap_cons_some hp]
    cases q with
    | zero => rw [List.getElem?_cons_zero, List.getElem?_cons_zero, Option.bind_some, hp]
    | succ q => exact ih (fun q hq => h q (List.mem_cons_of_mem p hq)) q

theorem length_filterMap_positions (h : ∀ p ∈ positions, p < l.length) :
    (positions.filterMap (l[·]?)).length = positions.length := by
  rw [List.length_filterMap_eq_countP, List.countP_eq_length]
  exact fun p hp => by simp [h p hp]

theorem filterMap_of_forall₂ {l' : List α}
    (h : List.Forall₂ (fun p a => l[p]? = some a) positions l') :
    positions.filterMap (l[·]?) = l' := by
  induction h with
  | nil => rfl
  | cons hp _ ih => rw [List.filterMap_cons_some hp, ih]

theorem filterMap_range_getElem? (l : List α) :
    (List.range l.length).filterMap (l[·]?) = l := by
  ext q : 1
  rw [getElem?_filterMap_positions fun p hp => List.mem_range.mp hp]
  by_cases hq : q < l.length
  · rw [List.getElem?_range hq, Option.bind_some]
  · rw [List.getElem?_eq_none (by simpa using hq), Option.bind_none,
      List.getElem?_eq_none (Nat.not_lt.mp hq)]

end Positions

/-! ### Entries at some positions -/

/-- The entries of a list at the positions that satisfy a condition, in their order. -/
def pick {α : Type} : (Nat → Bool) → List α → List α
  | _, [] => []
  | keep, a :: l =>
    if keep 0 then a :: pick (fun p => keep (p + 1)) l else pick (fun p => keep (p + 1)) l

section Pick

variable {α β : Type}

@[simp] theorem pick_nil (keep : Nat → Bool) : pick keep ([] : List α) = [] := rfl

theorem pick_cons (keep : Nat → Bool) (a : α) (l : List α) : pick keep (a :: l) =
    if keep 0 then a :: pick (fun p => keep (p + 1)) l else pick (fun p => keep (p + 1)) l := rfl

theorem pick_sublist (keep : Nat → Bool) (l : List α) : (pick keep l).Sublist l := by
  induction l generalizing keep with
  | nil => exact .slnil
  | cons a l ih =>
    rw [pick_cons]
    split
    · exact (ih _).cons_cons a
    · exact (ih _).cons a

theorem pick_map (keep : Nat → Bool) (f : α → β) (l : List α) :
    pick keep (l.map f) = (pick keep l).map f := by
  induction l generalizing keep with
  | nil => rfl
  | cons a l ih =>
    rw [List.map_cons, pick_cons, pick_cons, ih]
    split <;> rfl

theorem pick_zip (keep : Nat → Bool) (l : List α) (l' : List β) :
    (pick keep l).zip (pick keep l') = pick keep (l.zip l') := by
  induction l generalizing keep l' with
  | nil => simp
  | cons a l ih =>
    cases l' with
    | nil => simp
    | cons b l' =>
      rw [List.zip_cons_cons, pick_cons, pick_cons, pick_cons, ← ih]
      split <;> rfl

theorem length_pick_congr (keep : Nat → Bool) {l : List α} {l' : List β}
    (h : l.length = l'.length) : (pick keep l).length = (pick keep l').length := by
  induction l generalizing keep l' with
  | nil => simp [List.length_eq_zero_iff.mp h.symm]
  | cons a l ih =>
    cases l' with
    | nil => simp at h
    | cons b l' =>
      rw [pick_cons, pick_cons]
      split <;> simp [ih _ (Nat.succ.inj h)]

theorem mem_pick {keep : Nat → Bool} {l : List α} {a : α} :
    a ∈ pick keep l ↔ ∃ p, l[p]? = some a ∧ keep p = true := by
  induction l generalizing keep with
  | nil => simp
  | cons b l ih =>
    have hsplit : (∃ p, (b :: l)[p]? = some a ∧ keep p = true) ↔
        (b = a ∧ keep 0 = true) ∨ ∃ p, l[p]? = some a ∧ keep (p + 1) = true := by
      constructor
      · rintro ⟨_ | p, hp, hkeep⟩
        · exact .inl ⟨by simpa using hp, hkeep⟩
        · exact .inr ⟨p, by simpa using hp, hkeep⟩
      · rintro (⟨rfl, hkeep⟩ | ⟨p, hp, hkeep⟩)
        · exact ⟨0, by simp, hkeep⟩
        · exact ⟨p + 1, by simpa using hp, hkeep⟩
    rw [hsplit, pick_cons, ← ih]
    by_cases h : keep 0 = true
    · simp [h, eq_comm]
    · simp [h]

/-- Where the condition on a position is one on the entry there, picking is filtering. -/
theorem pick_eq_filter {keep : Nat → Bool} {k : α → Bool} {l : List α}
    (h : ∀ p a, l[p]? = some a → keep p = k a) : pick keep l = l.filter k := by
  induction l generalizing keep with
  | nil => rfl
  | cons a l ih =>
    have htail : pick (fun p => keep (p + 1)) l = l.filter k :=
      ih fun p b hp => h (p + 1) b (by simpa using hp)
    rw [pick_cons, List.filter_cons, htail, h 0 a (by simp)]

/-- The last of the entries picked that satisfies a condition. -/
theorem find?_reverse_pick_eq_some_iff {keep : Nat → Bool} {k : α → Bool} {l : List α} {a : α} :
    (pick keep l).reverse.find? k = some a ↔ ∃ p, l[p]? = some a ∧ keep p = true ∧ k a = true ∧
      ∀ q b, p < q → l[q]? = some b → keep q = true → k b = false := by
  induction l generalizing keep with
  | nil => simp
  | cons b l ih =>
    have hsplit : (pick keep (b :: l)).reverse.find? k =
        ((pick (fun p => keep (p + 1)) l).reverse.find? k).or
          (if keep 0 && k b then some b else none) := by
      rw [pick_cons]
      by_cases h0 : keep 0 = true
      · rw [if_pos h0, List.reverse_cons, List.find?_append, h0, Bool.true_and,
          List.find?_singleton]
      · simp [h0]
    rw [hsplit, Option.or_eq_some_iff, ih]
    constructor
    · rintro (⟨p, hp, hkeep, hk, hlast⟩ | ⟨hnone, hhead⟩)
      · refine ⟨p + 1, by simpa using hp, hkeep, hk, fun q b' hq hb' => ?_⟩
        obtain ⟨q, rfl⟩ : ∃ q', q = q' + 1 := ⟨q - 1, by omega⟩
        exact hlast q b' (by omega) (by simpa using hb')
      · obtain ⟨⟨hkeep, hk⟩, rfl⟩ : (keep 0 = true ∧ k b = true) ∧ b = a := by
          simpa using hhead
        refine ⟨0, by simp, hkeep, hk, fun q b' hq hb' hkeep' => ?_⟩
        obtain ⟨q, rfl⟩ : ∃ q', q = q' + 1 := ⟨q - 1, by omega⟩
        rw [List.find?_eq_none] at hnone
        simpa using hnone b' (List.mem_reverse.mpr
          (mem_pick.mpr ⟨q, by simpa using hb', hkeep'⟩))
    · rintro ⟨_ | p, hp, hkeep, hk, hlast⟩
      · obtain rfl : b = a := by simpa using hp
        refine .inr ⟨List.find?_eq_none.mpr fun b' hb' => ?_, by simp [hkeep, hk]⟩
        obtain ⟨q, hq, hkeep'⟩ := mem_pick.mp (List.mem_reverse.mp hb')
        simpa using hlast (q + 1) b' (by omega) (by simpa using hq) hkeep'
      · exact .inl ⟨p, by simpa using hp, hkeep, hk, fun q b' hq hb' =>
          hlast (q + 1) b' (by omega) (by simpa using hb')⟩

theorem pick_congr {keep keep' : Nat → Bool} {l : List α}
    (h : ∀ p < l.length, keep p = keep' p) : pick keep l = pick keep' l := by
  induction l generalizing keep keep' with
  | nil => rfl
  | cons a l ih =>
    rw [pick_cons, pick_cons, h 0 (by simp), ih fun p hp => h (p + 1) (by simpa using hp)]

theorem pick_eq_self {keep : Nat → Bool} {l : List α} (h : ∀ p < l.length, keep p = true) :
    pick keep l = l := by
  rw [pick_eq_filter (k := fun _ => true) fun p a hp => h p (List.getElem?_eq_some_iff.mp hp).1]
  simp

theorem forall₂_pick {R : α → β → Prop} {l : List α} {l' : List β}
    (h : List.Forall₂ R l l') (keep : Nat → Bool) :
    List.Forall₂ R (pick keep l) (pick keep l') := by
  induction h generalizing keep with
  | nil => exact .nil
  | cons hab _ ih =>
    rw [pick_cons, pick_cons]
    split
    · exact .cons hab (ih _)
    · exact ih _

theorem forall₂_range (l : List α) :
    List.Forall₂ (fun p a => l[p]? = some a) (List.range l.length) l :=
  List.forall₂_iff_get.mpr ⟨List.length_range, fun p hp hp' => by simp [hp']⟩

/-- The positions picked are those of the entries picked. -/
theorem forall₂_pick_range (keep : Nat → Bool) (l : List α) :
    List.Forall₂ (fun p a => l[p]? = some a) (pick keep (List.range l.length)) (pick keep l) :=
  forall₂_pick (forall₂_range l) keep

theorem getElem?_pick (keep : Nat → Bool) (l : List α) (i : Nat) :
    (pick keep l)[i]? = ((pick keep (List.range l.length))[i]?).bind (l[·]?) := by
  have hlt : ∀ p ∈ pick keep (List.range l.length), p < l.length := fun p hp =>
    List.mem_range.mp ((pick_sublist keep _).subset hp)
  rw [← getElem?_filterMap_positions hlt, filterMap_of_forall₂ (forall₂_pick_range keep l)]

theorem pick_range_eq_filter (keep : Nat → Bool) (n : Nat) :
    pick keep (List.range n) = (List.range n).filter keep :=
  pick_eq_filter fun p q hq => by
    obtain ⟨hp, rfl⟩ := List.getElem?_eq_some_iff.mp hq
    rw [List.getElem_range]

/-- Positions behind the last one that is picked do not count. -/
theorem pick_range_congr {keep : Nat → Bool} {m n : Nat}
    (h : ∀ p, keep p = true → (p < m ↔ p < n)) :
    pick keep (List.range m) = pick keep (List.range n) := by
  wlog hmn : m ≤ n generalizing m n
  · exact (this (fun p hp => (h p hp).symm) (Nat.le_of_not_le hmn)).symm
  obtain ⟨d, rfl⟩ := Nat.exists_eq_add_of_le hmn
  have hbehind : ((List.range d).map (m + ·)).filter keep = [] := by
    rw [List.filter_eq_nil_iff, List.forall_mem_map]
    intro p hp hkeep
    have := (h (m + p) hkeep).mpr (by simpa using hp)
    omega
  rw [pick_range_eq_filter, pick_range_eq_filter, List.range_add, List.filter_append, hbehind,
    List.append_nil]

/-- The last of the entries that satisfies a condition. -/
theorem find?_reverse_eq_some_iff {k : α → Bool} {l : List α} {a : α} :
    l.reverse.find? k = some a ↔ ∃ p : Nat, l[p]? = some a ∧ k a = true ∧
      ∀ (q : Nat) (b : α), p < q → l[q]? = some b → k b = false := by
  have hpick : pick (fun _ => true) l = l := pick_eq_self fun _ _ => rfl
  conv_lhs => rw [← hpick]
  simp only [find?_reverse_pick_eq_some_iff, true_and, forall_const]

/-- The positions of the entries that satisfy a condition. -/
theorem mem_zipIdx_filter {k : Nat → α → Bool} {l : List α} {p : Nat} :
    p ∈ (l.zipIdx.filter fun e => k e.2 e.1).map (·.2) ↔
      ∃ a, l[p]? = some a ∧ k p a = true := by
  simp only [List.mem_map, List.mem_filter, Prod.exists, List.mem_zipIdx_iff_getElem?]
  constructor
  · rintro ⟨a, q, ⟨ha, hkeep⟩, rfl⟩
    exact ⟨a, ha, hkeep⟩
  · rintro ⟨a, ha, hkeep⟩
    exact ⟨a, p, ⟨ha, hkeep⟩, rfl⟩

theorem zipIdx_filter_eq_pick (k : Nat → α → Bool) (l : List α) :
    (l.zipIdx.filter fun e => k e.2 e.1).map (·.2) =
      pick (fun p => (l[p]?).any (k p)) (List.range l.length) := by
  have hfilter : (l.zipIdx.filter fun e => k e.2 e.1) =
      pick (fun p => (l[p]?).any (k p)) l.zipIdx := by
    refine (pick_eq_filter fun p e he => ?_).symm
    rw [List.getElem?_zipIdx, Option.map_eq_some_iff] at he
    obtain ⟨a, ha, rfl⟩ := he
    simp [ha]
  rw [hfilter, ← pick_map, List.zipIdx_map_snd, List.range_eq_range']

/-- The entries of a list at the positions where another one satisfies a condition, if none of
them lies past the end. -/
theorem filterMap_zipIdx_filter {k : Nat → α → Bool} {l : List α} {values : List β}
    (h : ∀ p ∈ (l.zipIdx.filter fun e => k e.2 e.1).map (·.2), p < values.length) :
    ((l.zipIdx.filter fun e => k e.2 e.1).map (·.2)).filterMap (values[·]?) =
      pick (fun p => (l[p]?).any (k p)) values := by
  have hrange : (l.zipIdx.filter fun e => k e.2 e.1).map (·.2) =
      pick (fun p => (l[p]?).any (k p)) (List.range values.length) := by
    rw [zipIdx_filter_eq_pick]
    refine pick_range_congr fun p hp => ?_
    obtain ⟨a, ha, hkeep⟩ := (Option.any_eq_true _ _).mp hp
    exact iff_of_true (List.getElem?_eq_some_iff.mp ha).1
      (h p (mem_zipIdx_filter.mpr ⟨a, ha, hkeep⟩))
  rw [hrange]
  exact filterMap_of_forall₂ (forall₂_pick_range _ values)

/-- The same for a map that fails at a position past the end. -/
theorem mapM_getElem?_zipIdx {index : List β} {values picked : List α} {keep : β → Bool}
    (h : ((index.zipIdx.filter fun e => keep e.1).map (·.2)).mapM (values[·]?) = some picked) :
    picked = pick (fun p => (index[p]?).any keep) values := by
  have hentries := mapM_eq_some_iff.mp h
  have hlt : ∀ p ∈ (index.zipIdx.filter fun e => keep e.1).map (·.2), p < values.length := by
    intro p hp
    obtain ⟨a, -, ha⟩ := exists_of_forall₂ hentries hp
    exact (List.getElem?_eq_some_iff.mp ha).1
  rw [← filterMap_of_forall₂ hentries]
  exact filterMap_zipIdx_filter (k := fun _ => keep) hlt

end Pick

end PowerTables
