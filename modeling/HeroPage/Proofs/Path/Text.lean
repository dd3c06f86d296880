import HeroPage.Link
import Mathlib.Data.List.Basic
import Mathlib.Tactic.Common
set_option autoImplicit false

/-! A router that goes by names shows a landing page also behind further slashes, but the home page and all else
exactly (`Route.ofPath?_isSome_iff`). -/

namespace HeroPage

namespace Path

variable {p q : Path} {cs url tail : List Char} {word : String}

/-- A path with a slash in front of every piece. -/
def characters (p : Path) : List Char := p.pieces.flatMap fun piece => '/' :: piece.toList

def text (p : Path) : String := String.ofList p.characters

def Slashless (cs : List Char) : Prop := ∀ c ∈ cs, isSlash c = false

theorem slashless_of_any (h : cs.any isSlash = false) : Slashless cs := by
  simpa [Slashless] using h

/-- What the path of every URL is: there is a piece, and no piece could be cut. -/
structure Proper (p : Path) : Prop where
  ne_nil : p.pieces ≠ []
  slashless : ∀ piece ∈ p.pieces, Slashless piece.toList

theorem slashless_of_mem_cut {piece : List Char} (h : piece ∈ cut cs) : Slashless piece := by
  induction cs generalizing piece with
  | nil =>
    rw [cut, List.mem_singleton] at h
    exact h ▸ fun c hc => absurd hc List.not_mem_nil
  | cons c cs ih =>
    rw [cut] at h
    split at h
    · rcases List.mem_cons.mp h with rfl | h
      · exact fun c hc => absurd hc List.not_mem_nil
      · exact ih h
    · next hslash =>
      have hc : isSlash c = false := Bool.eq_false_iff.mpr hslash
      split at h
      · next hnil => exact absurd hnil (cut_ne_nil cs)
      · next first rest hcut =>
        rcases List.mem_cons.mp h with rfl | h
        · have hfirst : Slashless first := ih (hcut ▸ List.mem_cons_self)
          intro d hd
          rcases List.mem_cons.mp hd with rfl | hd
          · exact hc
          · exact hfirst d hd
        · exact ih (hcut ▸ List.mem_cons_of_mem first h)

theorem cut_of_slashless (h : Slashless cs) : cut cs = [cs] := by
  induction cs with
  | nil => rfl
  | cons c cs ih =>
    have hc := h c List.mem_cons_self
    rw [cut, hc, ih fun d hd => h d (List.mem_cons_of_mem c hd)]
    rfl

theorem cut_append (h : Slashless cs) (rest : List Char) : cut (cs ++ '/' :: rest) = cs :: cut rest := by
  induction cs with
  | nil => rfl
  | cons c cs ih =>
    have hc := h c List.mem_cons_self
    rw [List.cons_append, cut, hc, ih fun d hd => h d (List.mem_cons_of_mem c hd)]
    rfl

theorem cut_pieces (piece : String) (pieces : List String)
    (h : ∀ q ∈ piece :: pieces, Slashless q.toList) :
    cut (piece.toList ++ pieces.flatMap fun q => '/' :: q.toList) =
      (piece :: pieces).map String.toList := by
  induction pieces generalizing piece with
  | nil =>
    rw [List.flatMap_nil, List.append_nil]
    exact cut_of_slashless (h piece List.mem_cons_self)
  | cons next pieces ih =>
    rw [List.flatMap_cons, List.cons_append, cut_append (h piece List.mem_cons_self),
      ih next fun q hq => h q (List.mem_cons_of_mem piece hq)]
    rfl

theorem Proper.cut_characters (hp : p.Proper) : cut p.characters.tail = p.pieces.map String.toList := by
  obtain ⟨pieces⟩ := p
  cases pieces with
  | nil => exact absurd rfl hp.ne_nil
  | cons piece pieces => exact cut_pieces piece pieces hp.slashless

theorem Proper.text_injective (hp : p.Proper) (hq : q.Proper) (h : p.text = q.text) : p = q := by
  have hcharacters : p.characters = q.characters := String.ofList_injective h
  have hpieces : p.pieces.map String.toList = q.pieces.map String.toList := by
    rw [← hp.cut_characters, ← hq.cut_characters, hcharacters]
  obtain ⟨pieces⟩ := p
  obtain ⟨pieces'⟩ := q
  exact congrArg Path.mk (List.map_injective_iff.mpr (fun _ _ => String.toList_inj.mp) hpieces)

/-- The last piece stays unless it is made of dots, and then an empty one takes its place. -/
theorem ofPieces_ne_nil {pieces : List (List Char)} (h : pieces ≠ []) : (ofPieces pieces).pieces ≠ [] := by
  obtain rfl | ⟨first, last, rfl⟩ := List.eq_nil_or_concat' pieces
  · exact absurd rfl h
  simp only [ofPieces, List.getLast?_concat, Option.any_some, List.foldl_append, List.foldl_cons,
    List.foldl_nil, ne_eq, List.map_eq_nil_iff, List.reverse_eq_nil_iff]
  split
  · exact List.cons_ne_nil _ _
  · next hdots =>
    rw [Bool.or_eq_true, not_or] at hdots
    unfold walk
    rw [if_neg hdots.1, if_neg hdots.2]
    exact List.cons_ne_nil _ _

theorem walk_subset (walked : List (List Char)) (piece : List Char) :
    walk walked piece ⊆ piece :: walked := by
  unfold walk
  split
  · exact List.subset_cons_self piece walked
  · split
    · split
      · exact List.nil_subset _
      · next last rest =>
        split
        · exact List.subset_cons_self piece (last :: rest)
        · exact fun q hq => List.mem_cons_of_mem piece (List.mem_cons_of_mem last hq)
    · exact List.Subset.refl _

theorem foldl_walk_subset (pieces walked : List (List Char)) :
    pieces.foldl walk walked ⊆ pieces ++ walked := by
  induction pieces generalizing walked with
  | nil => exact List.Subset.refl walked
  | cons piece pieces ih =>
    intro q hq
    rcases List.mem_append.mp (ih (walk walked piece) hq) with hlater | hwalked
    · exact List.mem_append_left walked (List.mem_cons_of_mem piece hlater)
    · rcases List.mem_cons.mp (walk_subset walked piece hwalked) with rfl | hbefore
      · exact List.mem_append_left walked List.mem_cons_self
      · exact List.mem_append_right (piece :: pieces) hbefore

theorem slashless_of_mem_ofPieces {pieces : List (List Char)} (h : ∀ cs ∈ pieces, Slashless cs)
    {piece : String} (hpiece : piece ∈ (ofPieces pieces).pieces) : Slashless piece.toList := by
  simp only [ofPieces, List.mem_map, List.mem_reverse] at hpiece
  obtain ⟨cs, hcs, rfl⟩ := hpiece
  have hwalked : cs = [] ∨ cs ∈ pieces.foldl walk [] := by grind
  rw [String.toList_ofList]
  rcases hwalked with rfl | hwalked
  · exact fun c hc => absurd hc List.not_mem_nil
  · have hmem := foldl_walk_subset pieces [] hwalked
    rw [List.append_nil] at hmem
    exact h cs hmem

theorem proper_ofUrl (url : String) : (ofUrl url).Proper where
  ne_nil := ofPieces_ne_nil (cut_ne_nil _)
  slashless := fun _ => slashless_of_mem_ofPieces fun _ => slashless_of_mem_cut

theorem names_root : names ⟨[""]⟩ = [] := by decide

/-- Only at the root does the last piece give no name. -/
theorem names_concat {first : List String} {last : String} (h : first ++ [last] ≠ [""]) :
    names ⟨first ++ [last]⟩ = first.filter (· ≠ "") ++ [last] := by
  unfold names
  by_cases hlast : last = ""
  · subst hlast
    rw [if_pos ⟨h, List.getLast?_concat⟩]
    simp
  · rw [if_neg fun hempty => hlast (by simpa using hempty.2)]
    simp [hlast]

theorem names_eq_nil_iff (h : p.pieces ≠ []) : p.names = [] ↔ p.pieces = [""] := by
  obtain ⟨pieces⟩ := p
  obtain rfl | ⟨first, last, rfl⟩ := List.eq_nil_or_concat' pieces
  · exact absurd rfl h
  by_cases hroot : first ++ [last] = [""]
  · rw [hroot]
    exact iff_of_true names_root rfl
  · rw [names_concat hroot]
    exact iff_of_false (by simp) hroot

theorem filter_ne_empty_eq_nil_iff {pieces : List String} :
    pieces.filter (· ≠ "") = [] ↔ ∃ k, pieces = List.replicate k "" := by
  constructor
  · intro h
    exact ⟨pieces.length, List.eq_replicate_of_mem fun piece hpiece => by
      simpa using List.filter_eq_nil_iff.mp h piece hpiece⟩
  · rintro ⟨k, rfl⟩
    simp

theorem names_eq_singleton_iff (h : p.pieces ≠ []) (hword : word ≠ "") :
    p.names = [word] ↔ ∃ k, p.pieces = List.replicate k "" ++ [word] := by
  obtain ⟨pieces⟩ := p
  obtain rfl | ⟨first, last, rfl⟩ := List.eq_nil_or_concat' pieces
  · exact absurd rfl h
  by_cases hroot : first ++ [last] = [""]
  · rw [hroot, names_root]
    refine iff_of_false (List.cons_ne_nil _ _).symm ?_
    rintro ⟨k, hk⟩
    have hlast := congrArg List.getLast? hk
    simp [hword.symm] at hlast
  · rw [names_concat hroot]
    constructor
    · intro hnames
      obtain ⟨hfirst, hlast⟩ := List.append_inj' (hnames.trans (List.nil_append [word]).symm) rfl
      obtain ⟨k, hk⟩ := filter_ne_empty_eq_nil_iff.mp hfirst
      exact ⟨k, by rw [hk, hlast]⟩
    · rintro ⟨k, hk⟩
      obtain ⟨rfl, hlast⟩ := List.append_inj' hk rfl
      rw [hlast]
      simp

def slashes (k : Nat) : String := String.ofList (List.replicate k '/')

theorem text_replicate (k : Nat) (word : String) :
    text ⟨List.replicate k "" ++ [word]⟩ = slashes k ++ ("/" ++ word) := by
  rw [← String.toList_inj, text, String.toList_ofList, characters, List.flatMap_append, slashes,
    String.toList_append, String.toList_ofList, String.toList_append]
  congr 1
  · induction k with
    | zero => rfl
    | succ k ih => rw [List.replicate_succ, List.replicate_succ, List.flatMap_cons, ih]; rfl
  · simp

theorem Proper.pieces_eq_iff (hp : p.Proper) (hword : Slashless word.toList) (k : Nat) :
    p.pieces = List.replicate k "" ++ [word] ↔ p.text = slashes k ++ ("/" ++ word) := by
  rw [← text_replicate]
  constructor
  · intro h
    rw [← h]
  · intro h
    have hq : Proper ⟨List.replicate k "" ++ [word]⟩ := by
      refine ⟨by simp, fun piece hpiece => ?_⟩
      rcases List.mem_append.mp hpiece with hempty | hlast
      · rw [List.eq_of_mem_replicate hempty]
        exact fun c hc => absurd hc List.not_mem_nil
      · rw [List.mem_singleton.mp hlast]
        exact hword
    exact congrArg Path.pieces (hp.text_injective hq h)

theorem clean_of_closed (h : ∀ c ∈ url.getLast?, ¬c ≤ ' ') : clean url = url.filter fun c => !isBreak c := by
  unfold clean
  have hkeep : url.reverse.dropWhile (fun c => decide (c ≤ ' ')) = url.reverse := by
    obtain rfl | ⟨first, last, rfl⟩ := List.eq_nil_or_concat' url
    · rfl
    · have hlast := h last (by simp)
      simp [hlast]
  rw [hkeep, List.reverse_reverse]

theorem clean_append {mark : Char} (hmark : mark = '?' ∨ mark = '#') :
    ∃ rest, clean (url ++ mark :: tail) = (url.filter fun c => !isBreak c) ++ mark :: rest := by
  have hblank : decide (mark ≤ ' ') = false := by rcases hmark with rfl | rfl <;> decide
  have hbreak : isBreak mark = false := by rcases hmark with rfl | rfl <;> decide
  have hdrop : ∃ kept, (url ++ mark :: tail).reverse.dropWhile (fun c => decide (c ≤ ' ')) =
      kept ++ (url ++ [mark]).reverse := by
    rw [List.append_cons, List.reverse_append, List.dropWhile_append]
    split
    · exact ⟨[], by simp [hblank]⟩
    · exact ⟨_, rfl⟩
  -- the mark is no blank, so what is dropped at the end never reaches back into `url`
  obtain ⟨kept, hkept⟩ := hdrop
  refine ⟨kept.reverse.filter fun c => !isBreak c, ?_⟩
  unfold clean
  rw [hkept, List.reverse_append, List.reverse_reverse, List.filter_append, List.filter_append,
    List.append_assoc]
  simp [hbreak]

theorem region_append (htail : ∀ c ∈ tail.head?, c = '?' ∨ c = '#')
    (hclosed : ∀ c ∈ url.getLast?, ¬c ≤ ' ') : region (url ++ tail) = region url := by
  cases tail with
  | nil => rw [List.append_nil]
  | cons mark tail =>
    have hmark := htail mark rfl
    have hstop : (mark != '?' && mark != '#') = false := by rcases hmark with rfl | rfl <;> decide
    obtain ⟨rest, hclean⟩ : ∃ rest, clean (url ++ mark :: tail) =
        (url.filter fun c => !isBreak c) ++ mark :: rest := clean_append hmark
    unfold region
    rw [hclean, clean_of_closed hclosed, List.takeWhile_append]
    split
    · next hall =>
      rw [List.takeWhile_cons_of_neg (by simpa using hstop), List.append_nil,
        (List.takeWhile_prefix _).eq_of_length hall]
    · rfl

theorem ofUrl_append {url tail : String} (htail : ∀ c ∈ tail.toList.head?, c = '?' ∨ c = '#')
    (hclosed : ∀ c ∈ url.toList.getLast?, ¬c ≤ ' ') : ofUrl (url ++ tail) = ofUrl url := by
  rw [ofUrl, String.toList_append, region_append htail hclosed]
  rfl

end Path

namespace Route

open HeroPage.Path

variable {p : Path}

theorem ofPath?_home_iff (hp : p.Proper) : ofPath? p = some .home ↔ p.text = home.path := by
  have hnames : (ofUrl home.path).names = [] := by decide +kernel
  have hempty : Slashless "".toList := fun c hc => absurd hc List.not_mem_nil
  rw [ofPath?_eq_some_iff, hnames, names_eq_nil_iff hp.ne_nil]
  exact hp.pieces_eq_iff hempty 0

theorem ofPath?_landing_iff (hp : p.Proper) (t : Target) :
    ofPath? p = some (.landing t) ↔ ∃ k, p.text = slashes k ++ t.path := by
  obtain ⟨word, hne, hword, hpath, hnames⟩ : ∃ word : String, word ≠ "" ∧ Slashless word.toList ∧
      t.path = "/" ++ word ∧ (ofUrl t.path).names = [word] := by
    cases t with
    | events =>
      exact ⟨"events", by decide, slashless_of_any (by decide +kernel), rfl, by decide +kernel⟩
    | register =>
      exact ⟨"register", by decide, slashless_of_any (by decide +kernel), rfl, by decide +kernel⟩
  rw [ofPath?_eq_some_iff, path, hnames, names_eq_singleton_iff hp.ne_nil hne, hpath]
  exact exists_congr fun k => hp.pieces_eq_iff hword k

theorem ofPath?_isSome_iff (hp : p.Proper) :
    (ofPath? p).isSome = true ↔ p.text = home.path ∨ ∃ t k, p.text = slashes k ++ Target.path t := by
  rw [← ofPath?_home_iff hp]
  simp only [← ofPath?_landing_iff hp]
  cases h : ofPath? p with
  | none => simp
  | some r => cases r <;> simp

end Route

end HeroPage
