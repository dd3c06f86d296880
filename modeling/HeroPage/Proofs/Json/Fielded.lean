import HeroPage.Proofs.Json.Records
import HeroPage.Proofs.Json.Written
set_option autoImplicit false

namespace HeroPage.Json

variable {α ρ : Type} {s v : List Char} {first : Bool} {keys : List String} {field : Reader α}

/-- What the reader makes of a text in front of anything that no number goes on with. -/
def Reader.Gives (field : Reader α) (v : List Char) (a : Option α) : Prop :=
  ∀ r, Apart r → (field.read (v ++ r)).toOption = a.map (·, r)

inductive Fielded (keys : List String) (field : Reader α) : List Char → String × Option α → Prop where
  | intro {key : String} {v : List Char} {a : Option α} (hkey : key ∈ keys) (hv : field.Gives v a) :
      Fielded keys field (writeMember (key, v)) (key, a)

/-- All that is given, unless something is refused. -/
def allGiven (entries : List (String × Option α)) : Option (List (String × α)) :=
  entries.mapM fun e => e.2.map (e.1, ·)

theorem allGiven_cons (key : String) (a : Option α) (entries : List (String × Option α)) :
    allGiven ((key, a) :: entries) = a.bind fun x => (allGiven entries).map ((key, x) :: ·) := by
  rw [allGiven, List.mapM_cons]
  cases a with
  | none => rfl
  | some x =>
    change (allGiven entries >>= _) = (allGiven entries).map _
    cases allGiven entries <;> rfl

theorem map_fst_allGiven {entries : List (String × Option α)} {given : List (String × α)}
    (h : allGiven entries = some given) : given.map Prod.fst = entries.map Prod.fst := by
  induction entries generalizing given with
  | nil =>
    cases h
    rfl
  | cons e entries ih =>
    obtain ⟨key, a⟩ := e
    rw [allGiven_cons, Option.bind_eq_some_iff] at h
    obtain ⟨x, rfl, h⟩ := h
    obtain ⟨rest, hrest, rfl⟩ := Option.map_eq_some_iff.mp h
    rw [List.map_cons, List.map_cons, ih hrest]

theorem key_writeString (key : String) : Key (writeString key.toList ++ [':']) key :=
  Key.intro blanks_nil (quoted_writeString key) blanks_nil

theorem readMembers_writeMember {found : List (String × α)} {p : List Char} {key : String}
    (hp : Lead first p) (hkey : key ∈ keys) (hnew : found.lookup key = none) (s : List Char) :
    (readMembers keys field found first (p ++ (writeMember (key, v) ++ s))).toOption =
      (field.read (v ++ s)).toOption.bind fun x =>
        (readMembers keys field ((key, x.1) :: found) false x.2).toOption := by
  obtain ⟨w, u, t, x, hw, hshape, hx, rfl, hcolon⟩ := (key_writeString key).split (v ++ s)
  have hmember : writeMember (String.ofList x, v) ++ s = w ++ '"' :: u := by
    rw [← hshape]
    simp only [writeMember, List.append_assoc, List.cons_append, List.nil_append]
  have hfield : readField field t = field.read (v ++ s) := by simp only [readField, hcolon]
  rw [hmember, readMembers_field (nextKey_lead hp hw u) hx hkey hnew, hfield]
  cases field.read (v ++ s) <;> rfl

/-- By induction on what stands up to the closing bracket: no key comes twice. -/
theorem readMembers_fielded {entries : List (String × Option α)}
    (h : Listed (Fielded keys field) '}' first s entries) {found : List (String × α)}
    (hnodup : (entries.map Prod.fst ++ found.map Prod.fst).Nodup) (r : List Char) :
    (readMembers keys field found first (s ++ r)).toOption =
      (allGiven entries).map fun given => (given.reverse ++ found, r) := by
  induction h generalizing found with
  | @close first w hw =>
    rw [List.append_assoc, List.singleton_append, readMembers_closing hw]
    rfl
  | @item first p m s e entries hp hm hs ih =>
    have hapart : Apart (s ++ r) := Listed.apart (b := .object) hs r
    obtain @⟨key, v, a, hkey, hv⟩ := hm
    rw [List.map_cons, List.cons_append, List.nodup_cons] at hnodup
    obtain ⟨hfresh, hrest⟩ := hnodup
    have hnew : found.lookup key = none :=
      lookup_eq_none_iff.mpr fun hmem => hfresh (List.mem_append_right _ hmem)
    rw [List.append_assoc, List.append_assoc, readMembers_writeMember hp hkey hnew, hv _ hapart,
      allGiven_cons]
    cases a with
    | none => rfl
    | some x =>
      have hnodup' : (entries.map Prod.fst ++ ((key, x) :: found).map Prod.fst).Nodup :=
        List.nodup_middle.mpr (List.nodup_cons.mpr ⟨hfresh, hrest⟩)
      rw [Option.map_some, Option.bind_some, Option.bind_some, ih hnodup', Option.map_map]
      congr 1
      funext given
      simp

theorem Record.read_writeObject (record : Record α ρ) {members : List (String × List Char × Option α)}
    (hgives : ∀ m ∈ members, m.1 ∈ record.keys ∧ record.field.Gives m.2.1 m.2.2)
    (hnodup : (members.map Prod.fst).Nodup) (r : List Char) :
    (record.read (writeObject (members.map fun m => (m.1, m.2.1)) ++ r)).toOption =
      ((allGiven (members.map fun m => (m.1, m.2.2))).bind fun given =>
        (record.make fun k => given.lookup k).toOption).map (·, r) := by
  have hlisted : Listed (Fielded record.keys record.field) '}' true
      (List.intercalate [','] (members.map fun m => writeMember (m.1, m.2.1)) ++ ['}'])
      (members.map fun m => (m.1, m.2.2)) :=
    listed_intercalate _ _ _ fun m hm => .intro (hgives m hm).1 (hgives m hm).2
  have hkeys : (members.map fun m => (m.1, m.2.2)).map Prod.fst = members.map Prod.fst := List.map_map
  have hmembers := readMembers_fielded hlisted (by rwa [hkeys, List.map_nil, List.append_nil]) r
  have hobject : record.read (writeObject (members.map fun m => (m.1, m.2.1)) ++ r) =
      record.readObject (List.intercalate [','] (members.map fun m => writeMember (m.1, m.2.1)) ++ ['}'] ++ r) := by
    rw [writeObject, List.map_map, List.cons_append, read, skipBlank_cons rfl]
    exact if_pos rfl
  rw [hobject, readObject]
  cases hgiven : allGiven (members.map fun m => (m.1, m.2.2)) with
  | none =>
    rw [hgiven] at hmembers
    split
    · rfl
    · next hread =>
      rw [hread] at hmembers
      cases hmembers
  | some given =>
    rw [hgiven] at hmembers
    have hnodup' : (given.map Prod.fst).Nodup := by rwa [map_fst_allGiven hgiven, hkeys]
    split
    · next hread =>
      rw [hread] at hmembers
      cases hmembers
    · next hread =>
      rw [hread] at hmembers
      cases hmembers
      simp only [List.append_nil, lookup_reverse hnodup']
      rw [Option.bind_some]
      cases record.make fun k => given.lookup k <;> rfl

end HeroPage.Json
