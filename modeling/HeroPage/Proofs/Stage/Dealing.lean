import Mathlib.Data.List.Induction
import Mathlib.Data.List.Nodup
set_option autoImplicit false

/-! Frames and timers are given out under numbers, and each number is run or given back. In an orderly history
that happens once and only while the number is open. -/

namespace HeroPage

inductive Kind where
  | frame
  | timer
  deriving DecidableEq

inductive Fate where
  | given
  | run
  | dropped
  deriving DecidableEq

structure Dealing where
  kind : Kind
  fate : Fate
  id : Nat
  deriving DecidableEq

namespace Dealing

/-- The numbers that are given out and neither run nor given back, in the order of giving. -/
def unsettled (kind : Kind) (history : List Dealing) : List Nat :=
  (history.filterMap fun d => if d.kind = kind ∧ d.fate = .given then some d.id else none).filter
    fun id => ⟨kind, .run, id⟩ ∉ history ∧ ⟨kind, .dropped, id⟩ ∉ history

section
variable {kind : Kind} {history : List Dealing}

theorem mem_unsettled {id : Nat} :
    id ∈ unsettled kind history ↔ ⟨kind, .given, id⟩ ∈ history ∧
      ⟨kind, .run, id⟩ ∉ history ∧ ⟨kind, .dropped, id⟩ ∉ history := by
  simp only [unsettled, List.mem_filter, List.mem_filterMap, decide_eq_true_eq]
  constructor
  · rintro ⟨⟨⟨kind', fate, id'⟩, hd, hite⟩, h⟩
    grind
  · rintro ⟨hd, h⟩
    exact ⟨⟨_, hd, by simp⟩, h⟩

theorem unsettled_concat_given {id : Nat} (h : ∀ d ∈ history, d.kind = kind → d.id ≠ id) :
    unsettled kind (history ++ [⟨kind, .given, id⟩]) = unsettled kind history ++ [id] := by
  have hrun : ⟨kind, .run, id⟩ ∉ history := fun hd => h _ hd rfl rfl
  have hdropped : ⟨kind, .dropped, id⟩ ∉ history := fun hd => h _ hd rfl rfl
  simp [unsettled, hrun, hdropped]

theorem unsettled_concat_settled {fate : Fate} {id : Nat} (h : fate ≠ .given) :
    unsettled kind (history ++ [⟨kind, fate, id⟩]) =
      (unsettled kind history).filter fun n => n != id := by
  simp only [unsettled, List.filterMap_append, List.filterMap_cons, h, and_false, ↓reduceIte,
    List.filterMap_nil, List.append_nil, List.filter_filter]
  congr 1
  funext n
  cases fate <;> grind

theorem unsettled_concat_other {d : Dealing} (h : d.kind ≠ kind) :
    unsettled kind (history ++ [d]) = unsettled kind history := by
  have hne (fate : Fate) (id : Nat) : (⟨kind, fate, id⟩ : Dealing) ≠ d := fun he => h (he ▸ rfl)
  simp [unsettled, h, hne]

end

/-- Histories in which a number is given out once and settled only while it is open. -/
inductive Orderly : List Dealing → Prop where
  | nil : Orderly []
  | give {history : List Dealing} {kind : Kind} {id : Nat} (h : Orderly history)
      (hid : ∀ d ∈ history, d.kind = kind → d.id ≠ id) :
      Orderly (history ++ [⟨kind, .given, id⟩])
  | settle {history : List Dealing} {kind : Kind} {fate : Fate} {id : Nat} (h : Orderly history)
      (hid : id ∈ unsettled kind history) (hfate : fate ≠ .given) :
      Orderly (history ++ [⟨kind, fate, id⟩])

namespace Orderly
variable {history : List Dealing}

theorem unsettled_nodup (h : Orderly history) (kind : Kind) : (unsettled kind history).Nodup := by
  induction h with
  | nil => exact List.nodup_nil
  | @give history kind' id _ hid ih =>
    by_cases hk : kind' = kind
    · subst hk
      rw [unsettled_concat_given hid, List.nodup_append]
      refine ⟨ih, by simp, fun n hn m hm he => ?_⟩
      rw [List.mem_singleton] at hm
      exact hid _ (mem_unsettled.mp hn).1 rfl (he.trans hm)
    · rwa [unsettled_concat_other hk]
  | @settle history kind' fate id _ _ hfate ih =>
    by_cases hk : kind' = kind
    · subst hk
      rw [unsettled_concat_settled hfate]
      exact ih.filter _
    · rwa [unsettled_concat_other hk]

theorem of_append {past future : List Dealing} (h : Orderly (past ++ future)) : Orderly past := by
  induction future using List.reverseRecOn with
  | nil => simpa using h
  | append_singleton future d ih =>
    rw [← List.append_assoc] at h
    generalize hall : past ++ future ++ [d] = all at h
    cases h with
    | nil => simp at hall
    | give h _ => exact ih ((List.append_inj' hall rfl).1 ▸ h)
    | settle h _ _ => exact ih ((List.append_inj' hall rfl).1 ▸ h)

theorem mem_of_settled {past future : List Dealing} {kind : Kind} {fate : Fate} {id : Nat}
    (h : Orderly (past ++ ⟨kind, fate, id⟩ :: future)) (hfate : fate ≠ .given) :
    id ∈ unsettled kind past := by
  have hall : Orderly ((past ++ [⟨kind, fate, id⟩]) ++ future) := by simpa using h
  have hnow : Orderly (past ++ [⟨kind, fate, id⟩]) := hall.of_append
  generalize hall : past ++ [⟨kind, fate, id⟩] = all at hnow
  cases hnow with
  | nil => simp at hall
  | give _ _ =>
    have hd := (List.append_inj' hall rfl).2
    simp only [List.cons.injEq, Dealing.mk.injEq, and_true] at hd
    exact absurd hd.2.1 hfate
  | settle _ hid _ =>
    obtain ⟨rfl, hd⟩ := List.append_inj' hall rfl
    simp only [List.cons.injEq, Dealing.mk.injEq, and_true] at hd
    obtain ⟨rfl, rfl, rfl⟩ := hd
    exact hid

theorem count (h : Orderly history) (kind : Kind) (id : Nat) :
    history.count ⟨kind, .given, id⟩ ≤ 1 ∧
      (unsettled kind history).count id + history.count ⟨kind, .run, id⟩ +
        history.count ⟨kind, .dropped, id⟩ = history.count ⟨kind, .given, id⟩ := by
  induction h with
  | nil => simp [unsettled]
  | @give history kind' id' _ hid ih =>
    by_cases hk : kind' = kind
    · subst hk
      rw [unsettled_concat_given hid]
      by_cases he : id' = id
      · subst he
        have hnew : history.count ⟨kind', .given, id'⟩ = 0 :=
          List.count_eq_zero.mpr fun hd => hid _ hd rfl rfl
        simp
        omega
      · simp [he]
        omega
    · simp [unsettled_concat_other, hk]
      omega
  | @settle history kind' fate id' h hid hfate ih =>
    by_cases hk : kind' = kind
    · subst hk
      rw [unsettled_concat_settled hfate]
      by_cases he : id' = id
      · subst he
        have hone : (unsettled kind' history).count id' = 1 :=
          List.count_eq_one_of_mem (h.unsettled_nodup kind') hid
        have hgone : ((unsettled kind' history).filter fun n => n != id').count id' = 0 :=
          List.count_eq_zero.mpr (by simp)
        rw [hgone]
        cases fate with
        | given => exact absurd rfl hfate
        | run => simp; omega
        | dropped => simp; omega
      · rw [List.count_filter (by simpa using Ne.symm he)]
        simpa [he] using ih
    · simpa [unsettled_concat_other, hk] using ih

end Orderly

/-- Of one kind, the numbers that are open and a bound on all numbers given out. -/
structure Account (history : List Dealing) (kind : Kind) (ids : List Nat) (last : Nat) : Prop where
  eq : unsettled kind history = ids
  le : ∀ d ∈ history, d.kind = kind → d.id ≤ last

namespace Account
variable {history : List Dealing} {kind : Kind} {ids : List Nat} {last : Nat}

theorem nil (kind : Kind) : Account [] kind [] 0 := ⟨rfl, by simp⟩

theorem fresh (h : Account history kind ids last) :
    ∀ d ∈ history, d.kind = kind → d.id ≠ last + 1 := by
  intro d hd hk
  have hle := h.le d hd hk
  omega

theorem give (h : Account history kind ids last) :
    Account (history ++ [⟨kind, .given, last + 1⟩]) kind (ids ++ [last + 1]) (last + 1) := by
  refine ⟨by rw [unsettled_concat_given h.fresh, h.eq], fun d hd hk => ?_⟩
  rcases List.mem_append.mp hd with hd | hd
  · exact Nat.le_succ_of_le (h.le d hd hk)
  · obtain rfl := List.mem_singleton.mp hd
    exact Nat.le_refl _

theorem settle {fate : Fate} {id : Nat} (h : Account history kind ids last) (hid : id ∈ ids)
    (hfate : fate ≠ .given) :
    Account (history ++ [⟨kind, fate, id⟩]) kind (ids.filter fun n => n != id) last := by
  refine ⟨by rw [unsettled_concat_settled hfate, h.eq], fun d hd hk => ?_⟩
  rcases List.mem_append.mp hd with hd | hd
  · exact h.le d hd hk
  · rw [List.mem_singleton.mp hd]
    exact h.le ⟨kind, .given, id⟩ (mem_unsettled.mp (h.eq ▸ hid)).1 rfl

theorem other {kind' : Kind} {fate : Fate} {id : Nat} (h : Account history kind ids last)
    (hne : kind' ≠ kind) : Account (history ++ [⟨kind', fate, id⟩]) kind ids last := by
  refine ⟨by rw [unsettled_concat_other hne, h.eq], fun d hd hk => ?_⟩
  rcases List.mem_append.mp hd with hd | hd
  · exact h.le d hd hk
  · obtain rfl := List.mem_singleton.mp hd
    exact absurd hk hne

end Account

end Dealing

end HeroPage
