import HeroPage.Content
import HeroPage.Fault
import HeroPage.Proofs.Json.Records
import HeroPage.Proofs.Json.Written
set_option autoImplicit false

namespace HeroPage.Content

open Json

/-- The texts of `c` are those found, and the built-in ones for the keys that have not been found. -/
def Takes (c : Content) (found : List (String × String)) : Prop :=
  ∀ m ∈ c.members, m ∈ found ∨ m ∈ builtIn.members ∧ m.1 ∉ found.map Prod.fst

inductive Accepted : List Char → Content → Prop where
  | intro {w v w' : List Char} {found : List (String × String)} {c : Content} (hw : Blanks w)
      (hv : Recorded keys Quoted v found) (hw' : Blanks w') (hc : c.Takes found) :
      Accepted (w ++ (v ++ w')) c

theorem keys_nodup : keys.Nodup := by decide

theorem members_injective {c c' : Content} (h : c.members = c'.members) : c = c' := by
  rw [← ofTexts_members c, h, ofTexts_members c']

theorem members_ofTexts (get : String → Option String) :
    (ofTexts get).members = builtIn.members.map fun p => (p.1, (get p.1).getD p.2) := rfl

theorem ofTexts_congr {get get' : String → Option String}
    (h : ∀ p ∈ builtIn.members, (get p.1).getD p.2 = (get' p.1).getD p.2) :
    ofTexts get = ofTexts get' := by
  apply members_injective
  rw [members_ofTexts, members_ofTexts]
  exact List.map_congr_left fun p hp => Prod.ext rfl (h p hp)

theorem takes_iff {found : List (String × String)} (h : (found.map Prod.fst).Nodup) (c : Content) :
    c.Takes found ↔ c = ofTexts fun k => found.lookup k := by
  have hbuiltIn : (builtIn.members.map Prod.fst).Nodup := keys_nodup
  have hmembers : (c.members.map Prod.fst).Nodup := keys_nodup
  constructor
  · intro htakes
    refine (ofTexts_members c).symm.trans (ofTexts_congr fun p hp => ?_)
    have hkey : p.1 ∈ c.members.map Prod.fst := by
      rw [keys_eq]
      exact List.mem_map_of_mem hp
    obtain ⟨m, hm, hmp⟩ := List.mem_map.mp hkey
    rw [← hmp, (mem_iff_lookup hmembers m).mp hm]
    rcases htakes m hm with hfound | ⟨hdefault, hnone⟩
    · rw [(mem_iff_lookup h m).mp hfound]
    · have hp' := (mem_iff_lookup hbuiltIn p).mp hp
      rw [← hmp, (mem_iff_lookup hbuiltIn m).mp hdefault] at hp'
      rw [lookup_eq_none_iff.mpr hnone]
      exact Option.some.inj hp'
  · rintro rfl m hm
    rw [members_ofTexts, List.mem_map] at hm
    obtain ⟨p, hp, rfl⟩ := hm
    cases hfound : found.lookup p.1 with
    | some v => exact .inl ((mem_iff_lookup h _).mpr hfound)
    | none => exact .inr ⟨hp, lookup_eq_none_iff.mp hfound⟩

theorem recorded_nodup {v : List Char} {found : List (String × String)}
    (h : Recorded keys Quoted v found) : (found.map Prod.fst).Nodup := by
  cases h with
  | object _ hnodup => exact hnodup
  | list _ _ => exact keys_nodup.sublist (map_fst_zip_sublist _ _)

theorem read?_eq_ok_iff (text : String) (c : Content) :
    read? text = .ok c ↔ Accepted text.toList c := by
  rw [read?, readDocument_eq_ok_iff]
  constructor
  · rintro ⟨r, hread, hr⟩
    obtain ⟨w, v, found, hw, hv, hmake, hs⟩ :=
      (record.read_eq_ok_iff textReader_exact).mp hread
    rw [hs]
    exact .intro hw hv hr ((takes_iff (recorded_nodup hv) c).mpr (Except.ok.inj hmake).symm)
  · intro h
    generalize text.toList = s at h
    obtain ⟨hw, hv, hr, hc⟩ := h
    refine ⟨_, (record.read_eq_ok_iff textReader_exact).mpr ⟨_, _, _, hw, hv, ?_, rfl⟩, hr⟩
    exact congrArg Except.ok ((takes_iff (recorded_nodup hv) c).mp hc).symm

theorem loaded_of_read? {text : String} {c : Content} (h : read? text = .ok c) : loaded text = c := by
  rw [loaded, h]

/-- The words of the site are the built-in ones but for the tagline. -/
theorem read?_siteText :
    read? siteText = .ok
      { builtIn with
        tagline :=
          "Workshops, hackathons and mentoring for student founders, makers and researchers. " ++
            "Bring an idea, leave with a team." } := by
  refine readDocument_eq_ok_iff.mpr ⟨['\n'], ?_, ?_⟩
  · refine eq_ok_of_toOption ?_
    unfold siteText
    -- the characters are spelled out: decoding the string takes longer than reading it
    rw [String.toList_ofList]
    decide +kernel
  · unfold Blanks
    simp [isBlank]

/-- The site does not fall back. -/
theorem read?_ofSite : read? siteText = .ok ofSite := by
  unfold ofSite
  rw [loaded_of_read? read?_siteText]
  exact read?_siteText

/-- Reading gives exactly the content that a text gives, and a fault for every other text. -/
theorem read?_exact (text : String) :
    (∀ c, read? text = .ok c ↔ Accepted text.toList c) ∧
      ((∃ e, (read? text).mapError Fault.content = .error (.content e)) ↔
        ¬∃ c, Accepted text.toList c) := by
  refine ⟨read?_eq_ok_iff text, ?_⟩
  cases hread : read? text with
  | error e =>
    refine iff_of_true ⟨e, rfl⟩ ?_
    rintro ⟨c, hc⟩
    rw [← read?_eq_ok_iff, hread] at hc
    cases hc
  | ok c =>
    refine iff_of_false ?_ (not_not_intro ⟨c, (read?_eq_ok_iff text c).mp hread⟩)
    rintro ⟨e, he⟩
    cases he

theorem takes_members (c : Content) : c.Takes c.members := fun _ hm => .inl hm

/-- Content of any texts survives being written and read. -/
theorem read?_written (c : Content) : read? c.written = .ok c := by
  have hkeys : ∀ m ∈ c.members, m.1 ∈ keys := by
    intro m hm
    rw [← keys_eq c]
    exact List.mem_map_of_mem hm
  have hnodup : (c.members.map Prod.fst).Nodup := by
    rw [keys_eq]
    exact keys_nodup
  have hrecorded := recorded_writeObject (fun x => writeString x.toList) quoted_writeString hkeys hnodup
  have haccepted := Accepted.intro blanks_nil hrecorded blanks_nil c.takes_members
  have htext : c.written.toList =
      writeObject (c.members.map fun m => (m.1, writeString m.2.toList)) := String.toList_ofList
  rw [List.nil_append, List.append_nil, ← htext] at haccepted
  exact (read?_eq_ok_iff c.written c).mpr haccepted

end HeroPage.Content
