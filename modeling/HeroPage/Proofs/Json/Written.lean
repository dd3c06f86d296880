import HeroPage.Json.Record
import HeroPage.Proofs.Json.Strings
set_option autoImplicit false

namespace HeroPage.Json

theorem isHexDigit_hexDigit {n : Nat} (h : n < 16) : IsHexDigit (hexDigit n) n := by
  interval_cases n <;> exact .inl rfl

theorem hex_of_lt {n : Nat} (h : n < 0x100) : Hex ['0', '0', hexDigit (n / 16), hexDigit (n % 16)] n := by
  have hzero : IsHexDigit '0' 0 := .inl rfl
  have hdigits := Hex.digits hzero hzero (isHexDigit_hexDigit (n := n / 16) (by omega))
    (isHexDigit_hexDigit (n := n % 16) (by omega))
  have hvalue : ((0 * 16 + 0) * 16 + n / 16) * 16 + n % 16 = n := by omega
  rwa [hvalue] at hdigits

theorem toNat_lt_of_lt {a b : Char} (h : a < b) : a.toNat < b.toNat := UInt32.lt_iff_toNat_lt.mp h

theorem spells_writeCharacter (c : Char) {s x : List Char} (h : Spells s x) :
    Spells (writeCharacter c ++ s) (c :: x) := by
  unfold writeCharacter
  split
  · exact .escape (.letter (by decide)) h
  · exact .escape (.letter (by decide)) h
  · exact .escape (.letter (by decide)) h
  · exact .escape (.letter (by decide)) h
  · exact .escape (.letter (by decide)) h
  · exact .escape (.letter (by decide)) h
  · exact .escape (.letter (by decide)) h
  · next hquote hback _ _ _ _ _ =>
    split
    · next hcontrol =>
      have hlt : c.toNat < 0x100 := Nat.lt_trans (toNat_lt_of_lt hcontrol) (by decide)
      exact .escape (.unit (hex_of_lt hlt)) h
    · next hplain => exact .plain ⟨Char.not_lt.mp hplain, hquote, hback⟩ h

theorem spells_flatMap_writeCharacter (x : List Char) : Spells (x.flatMap writeCharacter) x := by
  induction x with
  | nil => exact .nil
  | cons c x ih => exact spells_writeCharacter c ih

theorem quoted_writeString (x : String) : Quoted (writeString x.toList) x := by
  have h := Quoted.intro (spells_flatMap_writeCharacter x.toList)
  rwa [String.ofList_toList] at h

variable {α : Type} {keys : List String} {Field : List Char → α → Prop}

theorem member_writeMember {key : String} {v : List Char} {a : α} (hkey : key ∈ keys)
    (hv : Field v a) : Member keys Field (writeMember (key, v)) (key, some a) := by
  have hk : Key ([] ++ (writeString key.toList ++ ([] ++ [':']))) key :=
    .intro blanks_nil (quoted_writeString key) blanks_nil
  have hm := Member.known hk hkey blanks_nil hv
  have hshape : writeMember (key, v) =
      [] ++ (writeString key.toList ++ ([] ++ [':'])) ++ ([] ++ v) := by
    simp only [writeMember, List.nil_append, List.append_assoc, List.singleton_append]
  rwa [hshape]

section

variable {β γ : Type} {Item : List Char → β → Prop} (closing : Char) (text : γ → List Char)
  (item : γ → β)

theorem listed_behind {cs : List γ} (h : ∀ c ∈ cs, Item (text c) (item c)) :
    Listed Item closing false (cs.flatMap (fun c => ',' :: text c) ++ [closing]) (cs.map item) := by
  induction cs with
  | nil => exact .close blanks_nil
  | cons c cs ih =>
    have hbehind := ih fun c' hc' => h c' (List.mem_cons_of_mem c hc')
    have hitem := Listed.item (.next blanks_nil) (h c List.mem_cons_self) hbehind
    have hshape : (c :: cs).flatMap (fun c => ',' :: text c) ++ [closing] =
        ([] ++ [',']) ++ (text c ++ (cs.flatMap (fun c => ',' :: text c) ++ [closing])) := by
      simp only [List.flatMap_cons, List.append_assoc, List.cons_append, List.nil_append]
    rwa [hshape]

theorem intercalate_cons (c : γ) (cs : List γ) :
    List.intercalate [','] ((c :: cs).map text) = text c ++ cs.flatMap fun c => ',' :: text c := by
  induction cs generalizing c with
  | nil => simp
  | cons c' cs ih =>
    rw [List.map_cons, List.map_cons, List.intercalate_cons_cons, ← List.map_cons, ih]
    simp

theorem listed_intercalate {cs : List γ} (h : ∀ c ∈ cs, Item (text c) (item c)) :
    Listed Item closing true (List.intercalate [','] (cs.map text) ++ [closing]) (cs.map item) := by
  cases cs with
  | nil => exact .close blanks_nil
  | cons c cs =>
    have hbehind := listed_behind closing text item
      fun c' hc' => h c' (List.mem_cons_of_mem c hc')
    have hitem := Listed.item .first (h c List.mem_cons_self) hbehind
    rwa [intercalate_cons, List.append_assoc]

end

theorem given_map_some (members : List (String × α)) :
    given (members.map fun m => (m.1, some m.2)) = members := by
  rw [given, List.filterMap_map]
  exact List.filterMap_some

theorem recorded_writeObject (write : α → List Char) (hwrite : ∀ a, Field (write a) a)
    {members : List (String × α)} (hkeys : ∀ m ∈ members, m.1 ∈ keys)
    (hnodup : (members.map Prod.fst).Nodup) :
    Recorded keys Field (writeObject (members.map fun m => (m.1, write m.2))) members := by
  have hlisted : Listed (Member keys Field) '}' true
      (List.intercalate [','] (members.map fun m => writeMember (m.1, write m.2)) ++ ['}'])
      (members.map fun m => (m.1, some m.2)) :=
    listed_intercalate _ _ _ fun m hm => member_writeMember (hkeys m hm) (hwrite m.2)
  have hobject := Recorded.object hlisted (by rwa [given_map_some])
  rw [given_map_some] at hobject
  rwa [writeObject, List.map_map]

end HeroPage.Json
