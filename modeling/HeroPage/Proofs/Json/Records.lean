import HeroPage.Json.Document
import HeroPage.Json.Record
import HeroPage.Proofs.Json.Skipped
import Mathlib.Data.List.Nodup
set_option autoImplicit false

namespace HeroPage.Json

/-- The reader takes the texts of the given form, and those only. A text may be followed by anything
that no number goes on with, and it does not begin like a blank or like the end of a list. -/
structure Reader.Exact {α : Type} (field : Reader α) (Field : List Char → α → Prop) : Prop where
  split : ∀ {s r a}, field.read s = .ok (a, r) →
    ∃ w v, Blanks w ∧ Field v a ∧ s = w ++ (v ++ r)
  append : ∀ {w v r a}, Blanks w → Field v a → Apart r → field.read (w ++ (v ++ r)) = .ok (a, r)
  head : ∀ {v a}, Field v a → ∃ c t, v = c :: t ∧ isBlank c = false ∧ c ≠ ']'

theorem textReader_exact : textReader.Exact Quoted where
  split h := readText_eq_ok_iff.mp h
  append hw hv _ := readText_eq_ok_iff.mpr ⟨_, _, hw, hv, rfl⟩
  head hv := by
    cases hv with
    | intro _ => exact ⟨_, _, rfl, rfl, by decide⟩

variable {α ρ : Type} {s r t w v : List Char} {first : Bool} {keys : List String}
  {Field : List Char → α → Prop} {field : Reader α}

theorem closing_of_nextKey (h : nextKey first s = .ok (.inr r)) :
    ∃ w, Blanks w ∧ s = w ++ '}' :: r := by
  unfold nextKey at h
  split at h
  · cases h
  · next c t hs =>
    obtain ⟨-, w, hw, rfl⟩ := skipBlank_eq_cons_iff.mp hs
    split at h
    · next hc =>
      cases h
      exact ⟨w, hw, hc ▸ rfl⟩
    · split at h
      · split at h <;> cases h
      · split at h
        · split at h
          · cases h
          · split at h
            · cases h
            · split at h <;> cases h
        · cases h

theorem nextKey_closing (hw : Blanks w) (r : List Char) :
    nextKey first (w ++ '}' :: r) = .ok (.inr r) := by
  rw [nextKey, skipBlank_append_cons hw rfl]
  exact if_pos rfl

theorem lead_of_nextKey (h : nextKey first s = .ok (.inl r)) :
    ∃ p w, Lead first p ∧ Blanks w ∧ s = p ++ (w ++ '"' :: r) := by
  unfold nextKey at h
  split at h
  · cases h
  · next c t hs =>
    obtain ⟨-, w, hw, rfl⟩ := skipBlank_eq_cons_iff.mp hs
    split at h
    · cases h
    · split at h
      · next hfirst =>
        split at h
        · next hc =>
          cases h
          exact ⟨[], w, hfirst ▸ .first, hw, hc ▸ rfl⟩
        · cases h
      · next hnext =>
        split at h
        · next hc =>
          split at h
          · cases h
          · next d u hu =>
            obtain ⟨-, w', hw', rfl⟩ := skipBlank_eq_cons_iff.mp hu
            split at h
            · next hd =>
              cases h
              refine ⟨w ++ [','], w', Bool.eq_false_iff.mpr hnext ▸ .next hw, hw', ?_⟩
              rw [hc, hd, List.append_assoc, List.singleton_append]
            · split at h <;> cases h
        · cases h

theorem nextKey_lead {p : List Char} (hp : Lead first p) (hw : Blanks w) (r : List Char) :
    nextKey first (p ++ (w ++ '"' :: r)) = .ok (.inl r) := by
  cases hp with
  | first =>
    rw [List.nil_append, nextKey, skipBlank_append_cons hw rfl]
    rfl
  | next hp =>
    have hquote : skipBlank (w ++ '"' :: r) = '"' :: r := skipBlank_append_cons hw rfl r
    rw [List.append_assoc, List.singleton_append, nextKey, skipBlank_append_cons hp rfl]
    simp only [hquote]
    rfl

theorem Key.split {k : List Char} {key : String} (hk : Key k key) (r : List Char) :
    ∃ w u t x, Blanks w ∧ k ++ r = w ++ '"' :: u ∧ readString u = .ok (x, t) ∧
      String.ofList x = key ∧ readColon t = .ok r := by
  cases hk with
  | @intro w q w' key hw hq hw' =>
    cases hq with
    | @intro b x hb =>
      refine ⟨w, b ++ '"' :: (w' ++ ':' :: r), w' ++ ':' :: r, x, hw, ?_, readString_append hb _, rfl,
        readColon_eq_ok_iff.mpr ⟨w', hw', rfl⟩⟩
      simp only [List.append_assoc, List.cons_append, List.nil_append]

theorem key_of_readString {x : List Char} (hw : Blanks w) (h : readString s = .ok (x, t))
    (hcolon : readColon t = .ok r) :
    ∃ k, Key k (String.ofList x) ∧ w ++ '"' :: s = k ++ r := by
  obtain ⟨b, hb, rfl⟩ := spells_of_readString h
  obtain ⟨w', hw', rfl⟩ := readColon_eq_ok_iff.mp hcolon
  refine ⟨_, .intro hw (.intro hb) hw', ?_⟩
  simp only [List.append_assoc, List.cons_append, List.nil_append]

theorem given_cons (key : String) (a : Option α) (entries : List (String × Option α)) :
    given ((key, a) :: entries) = (a.map (key, ·)).toList ++ given entries := by
  cases a <;> rfl

theorem lookup_eq_none_iff {found : List (String × α)} {key : String} :
    found.lookup key = none ↔ key ∉ found.map Prod.fst := by
  rw [List.lookup_eq_none_iff, List.mem_map]
  constructor
  · rintro h ⟨p, hp, rfl⟩
    exact absurd (h p hp) (by simp)
  · intro h p hp
    rw [bne_iff_ne]
    rintro rfl
    exact h ⟨p, hp, rfl⟩

theorem listed_of_readMembers (hexact : field.Exact Field) {found all : List (String × α)}
    (h : readMembers keys field found first s = .ok (all, r))
    (hnodup : (found.map Prod.fst).Nodup) :
    ∃ x entries, Listed (Member keys Field) '}' first x entries ∧ s = x ++ r ∧
      all = (given entries).reverse ++ found ∧ (all.map Prod.fst).Nodup := by
  fun_induction readMembers keys field found first s with
  | case2 found first s t hn =>
    cases h
    obtain ⟨w, hw, rfl⟩ := closing_of_nextKey hn
    exact ⟨_, [], .close hw, by rw [List.append_assoc, List.singleton_append], rfl, hnodup⟩
  | case6 found first s u hn k t hk key hkey hnew a x hf ih =>
    have hfresh : key ∉ found.map Prod.fst := by
      rw [← lookup_eq_none_iff]
      exact Option.not_isSome_iff_eq_none.mp hnew
    obtain ⟨y, entries, hlisted, rfl, hall, hnodup'⟩ := ih h (List.nodup_cons.mpr ⟨hfresh, hnodup⟩)
    obtain ⟨p, w, hp, hw, rfl⟩ := lead_of_nextKey hn
    unfold readField at hf
    split at hf
    · cases hf
    · next z hz =>
      obtain ⟨l, hl, hshape⟩ := key_of_readString hw hk hz
      obtain ⟨w', v, hw', hv, rfl⟩ := hexact.split hf
      refine ⟨_, (key, some a) :: entries, .item hp (.known hl hkey hw' hv) hlisted, ?_, ?_, hnodup'⟩
      · rw [hshape]
        simp only [List.append_assoc]
      · rw [hall, given_cons]
        simp
  | case8 found first s u hn k t hk key hkey x hf ih =>
    obtain ⟨y, entries, hlisted, rfl, hall, hnodup'⟩ := ih h hnodup
    obtain ⟨p, w, hp, hw, rfl⟩ := lead_of_nextKey hn
    unfold skipField at hf
    split at hf
    · cases hf
    · next z hz =>
      obtain ⟨l, hl, hshape⟩ := key_of_readString hw hk hz
      obtain ⟨w', v, hw', hv, rfl⟩ := value_of_skipValue hf
      refine ⟨_, (key, none) :: entries, .item hp (.other hl hkey hw' hv) hlisted, ?_, ?_, hnodup'⟩
      · rw [hshape]
        simp only [List.append_assoc]
      · rw [hall, given_cons]
        rfl
  | _ => cases h

theorem readMembers_field {found : List (String × α)} {x : List Char}
    (hn : nextKey first s = .ok (.inl r)) (hk : readString r = .ok (x, t))
    (hkey : String.ofList x ∈ keys) (hnew : found.lookup (String.ofList x) = none) :
    readMembers keys field found first s =
      match readField field t with
      | .error e => .error e
      | .ok (a, u) => readMembers keys field ((String.ofList x, a) :: found) false u := by
  rw [readMembers]
  split
  · next h => rw [hn] at h; cases h
  · next h => rw [hn] at h; cases h
  · next h =>
    rw [hn] at h
    cases h
    split
    · next h => rw [hk] at h; cases h
    · next h =>
      rw [hk] at h
      cases h
      simp only [hkey, hnew, if_true, Option.isSome_none, Bool.false_eq_true, if_false]
      split
      · next h => rw [h]
      · next h => rw [h]

theorem readMembers_known {found : List (String × α)} {x u : List Char} {a : α}
    (hn : nextKey first s = .ok (.inl r)) (hk : readString r = .ok (x, t))
    (hkey : String.ofList x ∈ keys) (hnew : found.lookup (String.ofList x) = none)
    (hf : readField field t = .ok (a, u)) :
    readMembers keys field found first s =
      readMembers keys field ((String.ofList x, a) :: found) false u := by
  rw [readMembers_field hn hk hkey hnew, hf]

theorem readMembers_closing (hw : Blanks w) (found : List (String × α)) (r : List Char) :
    readMembers keys field found first (w ++ '}' :: r) = .ok (found, r) := by
  have hn : nextKey first (w ++ '}' :: r) = .ok (.inr r) := nextKey_closing hw r
  rw [readMembers]
  split
  · next h => rw [hn] at h; cases h
  · next h => rw [hn] at h; cases h; rfl
  · next h => rw [hn] at h; cases h

theorem readMembers_other {found : List (String × α)} {x u : List Char}
    (hn : nextKey first s = .ok (.inl r)) (hk : readString r = .ok (x, t))
    (hkey : String.ofList x ∉ keys) (hf : skipField t = .ok u) :
    readMembers keys field found first s = readMembers keys field found false u := by
  rw [readMembers]
  split
  · next h => rw [hn] at h; cases h
  · next h => rw [hn] at h; cases h
  · next h =>
    rw [hn] at h
    cases h
    split
    · next h => rw [hk] at h; cases h
    · next h =>
      rw [hk] at h
      cases h
      simp only [hkey, if_false]
      split
      · next h => rw [hf] at h; cases h
      · next h => rw [hf] at h; cases h; rfl

theorem Listed.apart {β : Type} {Item : List Char → β → Prop} {bs : List β} {b : Bracket}
    (h : Listed Item b.closing false s bs) (r : List Char) : Apart (s ++ r) := by
  cases h with
  | close hw =>
    rw [List.append_assoc]
    exact apart_blanks hw (apart_closing b _)
  | item hp _ _ =>
    rw [List.append_assoc]
    exact hp.apart _

theorem readMembers_append (hexact : field.Exact Field) {found : List (String × α)}
    {entries : List (String × Option α)} (h : Listed (Member keys Field) '}' first s entries)
    (hnodup : (((given entries).reverse ++ found).map Prod.fst).Nodup) (r : List Char) :
    readMembers keys field found first (s ++ r) = .ok ((given entries).reverse ++ found, r) := by
  induction h generalizing found with
  | @close first w hw =>
    rw [List.append_assoc, List.singleton_append]
    exact readMembers_closing hw found r
  | @item first p m s e entries hp hm hs ih =>
    have hapart : Apart (s ++ r) := Listed.apart (b := .object) hs r
    cases hm with
    | @known k w v key a hk hkey hw hv =>
      obtain ⟨w', u, t, x, hw', hshape, hx, rfl, hcolon⟩ := hk.split (w ++ (v ++ (s ++ r)))
      have hfield : readField field t = .ok (a, s ++ r) := by
        simp only [readField, hcolon, hexact.append hw hv hapart]
      have hgiven : (given ((String.ofList x, some a) :: entries)).reverse ++ found =
          (given entries).reverse ++ (String.ofList x, a) :: found := by
        rw [given_cons]
        simp
      rw [hgiven] at hnodup ⊢
      have hnew : found.lookup (String.ofList x) = none := by
        rw [lookup_eq_none_iff]
        rw [List.map_append] at hnodup
        exact (List.nodup_cons.mp (List.nodup_append.mp hnodup).2.1).1
      have hstep := readMembers_known (nextKey_lead hp hw' u) hx hkey hnew hfield
      simp only [List.append_assoc]
      rw [hshape, hstep, ih hnodup]
    | @other k w v key hk hkey hw hv =>
      obtain ⟨w', u, t, x, hw', hshape, hx, rfl, hcolon⟩ := hk.split (w ++ (v ++ (s ++ r)))
      have hskip : skipField t = .ok (s ++ r) := by
        simp only [skipField, hcolon, skipValue_append hw hv hapart]
      simp only [List.append_assoc]
      rw [hshape, readMembers_other (nextKey_lead hp hw' u) hx hkey hskip]
      exact ih hnodup

theorem nextElement_eq_none_iff :
    nextElement first s = .ok none ↔ ∃ w t, Blanks w ∧ s = w ++ ']' :: t := by
  constructor
  · intro h
    unfold nextElement at h
    split at h
    · cases h
    · next c t hs =>
      obtain ⟨-, w, hw, rfl⟩ := skipBlank_eq_cons_iff.mp hs
      split at h
      · next hc => exact ⟨w, t, hw, hc ▸ rfl⟩
      · split at h
        · cases h
        · split at h
          · split at h
            · cases h
            · split at h <;> cases h
          · cases h
  · rintro ⟨w, t, hw, rfl⟩
    rw [nextElement, skipBlank_append_cons hw rfl]
    exact if_pos rfl

theorem lead_of_nextElement (h : nextElement first s = .ok (some r)) :
    ∃ p w, Lead first p ∧ Blanks w ∧ s = p ++ (w ++ r) := by
  unfold nextElement at h
  split at h
  · cases h
  · next c t hs =>
    obtain ⟨-, w, hw, rfl⟩ := skipBlank_eq_cons_iff.mp hs
    split at h
    · cases h
    · split at h
      · next hfirst =>
        cases h
        exact ⟨[], w, hfirst ▸ .first, hw, rfl⟩
      · next hnext =>
        split at h
        · next hc =>
          split at h
          · cases h
          · next d u hu =>
            obtain ⟨-, w', hw', rfl⟩ := skipBlank_eq_cons_iff.mp hu
            split at h
            · cases h
            · cases h
              refine ⟨w ++ [','], w', Bool.eq_false_iff.mpr hnext ▸ .next hw, hw', ?_⟩
              rw [hc, List.append_assoc, List.singleton_append]
        · cases h

theorem nextElement_lead {c : Char} {p : List Char} (hp : Lead first p) (hw : Blanks w)
    (hblank : isBlank c = false) (hc : c ≠ ']') (r : List Char) :
    nextElement first (p ++ (w ++ c :: r)) = .ok (some (c :: r)) := by
  cases hp with
  | first =>
    rw [List.nil_append, nextElement, skipBlank_append_cons hw hblank]
    simp only [hc, if_false, if_true]
  | next hp =>
    have hitem : skipBlank (w ++ c :: r) = c :: r := skipBlank_append_cons hw hblank r
    rw [List.append_assoc, List.singleton_append, nextElement, skipBlank_append_cons hp rfl]
    simp only [hitem, hc, if_false, if_true]
    rfl

theorem endList_eq_ok_iff : endList s = .ok r ↔ ∃ w, Blanks w ∧ s = w ++ ']' :: r := by
  constructor
  · intro h
    unfold endList at h
    split at h
    · cases h
    · next c t hs =>
      obtain ⟨-, w, hw, rfl⟩ := skipBlank_eq_cons_iff.mp hs
      split at h
      · next hc =>
        cases h
        exact ⟨w, hw, hc ▸ rfl⟩
      · split at h
        · split at h <;> cases h
        · cases h
  · rintro ⟨w, hw, rfl⟩
    rw [endList, skipBlank_append_cons hw rfl]
    exact if_pos rfl

theorem listed_of_readElements (hexact : field.Exact Field) {found : List (String × α)}
    (h : readElements field first keys s = .ok (found, t)) (hend : endList t = .ok r) :
    ∃ x elements, Listed (Element Field) ']' first x elements ∧ s = x ++ r ∧
      elements.length ≤ keys.length ∧ found = keys.zip elements := by
  induction keys generalizing first s found with
  | nil =>
    cases h
    obtain ⟨w, hw, rfl⟩ := endList_eq_ok_iff.mp hend
    refine ⟨_, [], .close hw, ?_, le_rfl, rfl⟩
    rw [List.append_assoc, List.singleton_append]
  | cons key keys ih =>
    rw [readElements] at h
    split at h
    · cases h
    · cases h
      obtain ⟨w, hw, rfl⟩ := endList_eq_ok_iff.mp hend
      refine ⟨_, [], .close hw, ?_, Nat.zero_le _, rfl⟩
      rw [List.append_assoc, List.singleton_append]
    · next u hu =>
      split at h
      · cases h
      · next a y ha =>
        split at h
        · cases h
        · next more z hmore =>
          cases h
          obtain ⟨x, elements, hlisted, rfl, hlength, rfl⟩ := ih hmore
          obtain ⟨p, w, hp, hw, rfl⟩ := lead_of_nextElement hu
          obtain ⟨w', v, hw', hv, rfl⟩ := hexact.split ha
          refine ⟨_, a :: elements, .item hp (.intro (hw.append hw') hv) hlisted, ?_,
            Nat.succ_le_succ hlength, rfl⟩
          simp only [List.append_assoc]

theorem readElements_append (hexact : field.Exact Field) {elements : List α}
    (h : Listed (Element Field) ']' first s elements) (hlength : elements.length ≤ keys.length)
    (r : List Char) :
    ∃ t, readElements field first keys (s ++ r) = .ok (keys.zip elements, t) ∧
      endList t = .ok r := by
  induction h generalizing keys with
  | @close first w hw =>
    have hshape : (w ++ [']']) ++ r = w ++ ']' :: r := by rw [List.append_assoc, List.singleton_append]
    have hend : endList (w ++ ']' :: r) = .ok r := endList_eq_ok_iff.mpr ⟨w, hw, rfl⟩
    have hnone : nextElement first (w ++ ']' :: r) = .ok none :=
      nextElement_eq_none_iff.mpr ⟨w, r, hw, rfl⟩
    refine ⟨w ++ ']' :: r, ?_, hend⟩
    rw [hshape]
    cases keys with
    | nil => rfl
    | cons key keys => simp only [readElements, hnone, List.zip_nil_right]
  | @item first p v s a elements hp hv hs ih =>
    cases keys with
    | nil => exact absurd hlength (Nat.not_succ_le_zero _)
    | cons key keys =>
      obtain ⟨t, hread, hend⟩ := ih (Nat.le_of_succ_le_succ hlength)
      refine ⟨t, ?_, hend⟩
      cases hv with
      | @intro w v a hw hv =>
        have hfield := hexact.append blanks_nil hv (Listed.apart (b := .list) hs r)
        obtain ⟨c, u, rfl, hblank, hc⟩ := hexact.head hv
        have hnext := nextElement_lead hp hw hblank hc (u ++ (s ++ r))
        simp only [List.append_assoc, List.cons_append, List.nil_append] at hnext hfield ⊢
        simp only [readElements, hnext, hfield, hread, List.zip_cons_cons]

theorem lookup_reverse {found : List (String × α)} (h : (found.map Prod.fst).Nodup) (key : String) :
    found.reverse.lookup key = found.lookup key := by
  induction found with
  | nil => rfl
  | cons p found ih =>
    obtain ⟨hnew, hnodup⟩ := List.nodup_cons.mp h
    rw [List.reverse_cons, List.lookup_append, ih hnodup, List.lookup_cons, List.lookup_cons]
    cases hkey : key == p.1 with
    | true =>
      have hnone : found.lookup key = none := lookup_eq_none_iff.mpr (beq_iff_eq.mp hkey ▸ hnew)
      rw [hnone]
      rfl
    | false => exact Option.or_none

theorem mem_iff_lookup {found : List (String × α)} (h : (found.map Prod.fst).Nodup)
    (m : String × α) : m ∈ found ↔ found.lookup m.1 = some m.2 := by
  induction found with
  | nil => simp
  | cons p found ih =>
    obtain ⟨hnew, hnodup⟩ := List.nodup_cons.mp h
    rw [List.mem_cons, List.lookup_cons]
    cases hkey : m.1 == p.1 with
    | true =>
      have heq : m.1 = p.1 := beq_iff_eq.mp hkey
      have hnot : m ∉ found := fun hm => hnew (heq ▸ List.mem_map_of_mem hm)
      rw [or_iff_left hnot]
      change m = p ↔ some p.2 = some m.2
      rw [Option.some.injEq, Prod.ext_iff, and_iff_right heq, eq_comm]
    | false =>
      have hne : m ≠ p := fun h => by rw [h, beq_self_eq_true] at hkey; cases hkey
      rw [or_iff_right hne]
      exact ih hnodup

theorem map_fst_zip_sublist (keys : List String) (elements : List α) :
    ((keys.zip elements).map Prod.fst).Sublist keys := by
  induction keys generalizing elements with
  | nil => exact List.Sublist.refl []
  | cons key keys ih =>
    cases elements with
    | nil => exact List.nil_sublist _
    | cons a elements => exact (ih elements).cons_cons key

theorem Record.read_eq_ok_iff (record : Record α ρ) (hexact : record.field.Exact Field) {x : ρ} :
    record.read s = .ok (x, r) ↔ ∃ w v found, Blanks w ∧ Recorded record.keys Field v found ∧
      record.make (fun k => found.lookup k) = .ok x ∧ s = w ++ (v ++ r) := by
  constructor
  · intro h
    unfold Record.read at h
    split at h
    · cases h
    · next c t hs =>
      obtain ⟨-, w, hw, rfl⟩ := skipBlank_eq_cons_iff.mp hs
      split at h
      · next hc =>
        subst hc
        unfold Record.readObject at h
        split at h
        · cases h
        · next all u hall =>
          obtain ⟨y, entries, hlisted, rfl, rfl, hnodup⟩ :=
            listed_of_readMembers hexact hall List.nodup_nil
          rw [List.append_nil, List.map_reverse, List.nodup_reverse] at hnodup
          simp only [List.append_nil, lookup_reverse hnodup] at h
          split at h
          · cases h
          · next hmake =>
            cases h
            exact ⟨w, _, _, hw, .object hlisted hnodup, hmake, rfl⟩
      · split at h
        · next hc =>
          subst hc
          unfold Record.readList at h
          split at h
          · cases h
          · next found u hfound =>
            split at h
            · cases h
            · next hmake =>
              split at h
              · cases h
              · next hend =>
                cases h
                obtain ⟨y, elements, hlisted, rfl, hlength, rfl⟩ :=
                  listed_of_readElements hexact hfound hend
                exact ⟨w, _, _, hw, .list hlisted hlength, hmake, rfl⟩
        · cases h
  · rintro ⟨w, v, found, hw, hv, hmake, rfl⟩
    cases hv with
    | @object v entries hlisted hnodup =>
      have hreversed : (((given entries).reverse ++ []).map Prod.fst).Nodup := by
        rw [List.append_nil, List.map_reverse, List.nodup_reverse]
        exact hnodup
      have hall := readMembers_append hexact hlisted hreversed r
      rw [Record.read, List.cons_append, skipBlank_append_cons hw rfl]
      simp only [if_true, Record.readObject, hall, List.append_nil, lookup_reverse hnodup, hmake]
    | @list v elements hlisted hlength =>
      obtain ⟨t, hfound, hend⟩ := readElements_append hexact hlisted hlength r
      rw [Record.read, List.cons_append, skipBlank_append_cons hw rfl]
      simp only [Record.readList, hfound, hmake, hend, if_true]
      rfl

theorem eq_ok_of_toOption {ε α : Type} {r : Except ε α} {a : α} (h : r.toOption = some a) : r = .ok a := by
  cases r with
  | error e => cases h
  | ok b => exact congrArg Except.ok (Option.some.inj h)

theorem readDocument_eq_ok_iff {read : List Char → Except Stop (ρ × List Char)} {text : String}
    {x : ρ} : readDocument read text = .ok x ↔ ∃ r, read text.toList = .ok (x, r) ∧ Blanks r := by
  simp only [readDocument]
  constructor
  · intro h
    split at h
    · cases h
    · next y r hread =>
      split at h
      · next hr =>
        cases h
        obtain ⟨w, hw, hs⟩ := skipBlank_split r
        rw [hr, List.append_nil] at hs
        exact ⟨r, hread, hs ▸ hw⟩
      · cases h
  · rintro ⟨r, hread, hr⟩
    have hnil : skipBlank r = [] := by
      have hskip := skipBlank_append hr []
      rwa [List.append_nil] at hskip
    simp only [hread, hnil]

theorem readDocument_toOption {read : List Char → Except Stop (ρ × List Char)} {text : String}
    {x : Option ρ} (h : (read text.toList).toOption = x.map (·, [])) :
    (readDocument read text).toOption = x := by
  cases x with
  | none =>
    cases hread : read text.toList with
    | error e =>
      simp only [readDocument, hread]
      rfl
    | ok found =>
      rw [hread] at h
      cases h
  | some a =>
    rw [readDocument_eq_ok_iff.mpr ⟨[], eq_ok_of_toOption h, blanks_nil⟩]
    rfl

end HeroPage.Json
