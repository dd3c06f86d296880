import HeroPage.Json.Scalar
import HeroPage.Json.Skip
set_option autoImplicit false

/-! A field that is given twice is noticed when its key is read the second time, and a field that is missing
when the object ends. Such a fault of the record as a whole is placed behind the bracket that closes it,
if that is what comes next. -/

namespace HeroPage.Json

structure Record (α ρ : Type) where
  name : String
  keys : List String
  field : Reader α
  /-- The record with the given fields, or the key of a field that has to be there. -/
  make : (String → Option α) → Except String ρ

/-- What follows the bracket `c`, if only blanks stand in front of it. -/
def behindClosing (c : Char) (s : List Char) : List Char :=
  match skipBlank s with
  | [] => []
  | d :: r => if d = c then r else d :: r

def nextKey (first : Bool) (s : List Char) : Except Stop (Sum (List Char) (List Char)) :=
  match skipBlank s with
  | [] => .error (.past .unfinishedObject [])
  | c :: r =>
    if c = '}' then .ok (.inr r)
    else if first then
      if c = '"' then .ok (.inl r) else .error (.past .expectedKey (c :: r))
    else if c = ',' then
      match skipBlank r with
      | [] => .error (.past .unfinishedValue [])
      | d :: t =>
        if d = '"' then .ok (.inl t)
        else if d = '}' then .error (.past .trailingComma (d :: t))
        else .error (.past .expectedKey (d :: t))
    else .error (.past .expectedObjectEnd (c :: r))

theorem nextKey_length {first : Bool} {s r : List Char} (h : nextKey first s = .ok (.inl r)) :
    r.length < s.length := by
  unfold nextKey at h
  split at h
  · cases h
  · next c t hs =>
    have := length_lt_of_skipBlank hs
    split at h
    · cases h
    · split at h
      · split at h
        · cases h; assumption
        · cases h
      · split at h
        · split at h
          · cases h
          · next d u hu =>
            have := length_lt_of_skipBlank hu
            split at h
            · cases h; omega
            · split at h <;> cases h
        · cases h

section

variable {α ρ : Type}

def readField (field : Reader α) (s : List Char) : Except Stop (α × List Char) :=
  match readColon s with
  | .error e => .error e
  | .ok r => field.read r

theorem readField_length {field : Reader α} {s r : List Char} {a : α}
    (h : readField field s = .ok (a, r)) : r.length < s.length := by
  unfold readField at h
  split at h
  · cases h
  · next t ht => exact Nat.lt_trans (field.progress h) (readColon_length ht)

def skipField (s : List Char) : Except Stop (List Char) :=
  match readColon s with
  | .error e => .error e
  | .ok r => skipValue r

theorem skipField_length {s r : List Char} (h : skipField s = .ok r) : r.length < s.length := by
  unfold skipField at h
  split at h
  · cases h
  · next t ht => exact Nat.lt_trans (skipValue_length h) (readColon_length ht)

/-- The members of an object from here to its end; `found` holds those before. -/
def readMembers (keys : List String) (field : Reader α) (found : List (String × α)) (first : Bool)
    (s : List Char) : Except Stop (List (String × α) × List Char) :=
  match _hn : nextKey first s with
  | .error e => .error e
  | .ok (.inr r) => .ok (found, r)
  | .ok (.inl r) =>
    match _hk : readString r with
    | .error e => .error e
    | .ok (k, t) =>
      let key := String.ofList k
      if key ∈ keys then
        if (found.lookup key).isSome then
          .error (.here (.duplicateField key) (behindClosing '}' t))
        else
          match _hf : readField field t with
          | .error e => .error e
          | .ok (a, u) => readMembers keys field ((key, a) :: found) false u
      else
        match _hf : skipField t with
        | .error e => .error e
        | .ok u => readMembers keys field found false u
  termination_by s.length
  decreasing_by
    · exact Nat.lt_trans (readField_length _hf)
        (Nat.lt_trans (readString_length _hk) (nextKey_length _hn))
    · exact Nat.lt_trans (skipField_length _hf)
        (Nat.lt_trans (readString_length _hk) (nextKey_length _hn))

def nextElement (first : Bool) (s : List Char) : Except Stop (Option (List Char)) :=
  match skipBlank s with
  | [] => .error (.past .unfinishedList [])
  | c :: r =>
    if c = ']' then .ok none
    else if first then .ok (some (c :: r))
    else if c = ',' then
      match skipBlank r with
      | [] => .error (.past .unfinishedValue [])
      | d :: t => if d = ']' then .error (.past .trailingComma (d :: t)) else .ok (some (d :: t))
    else .error (.past .expectedListEnd (c :: r))

def readElements (field : Reader α) (first : Bool) :
    List String → List Char → Except Stop (List (String × α) × List Char)
  | [], s => .ok ([], s)
  | key :: keys, s =>
    match nextElement first s with
    | .error e => .error e
    | .ok none => .ok ([], s)
    | .ok (some r) =>
      match field.read r with
      | .error e => .error e
      | .ok (a, t) =>
        match readElements field false keys t with
        | .error e => .error e
        | .ok (found, u) => .ok ((key, a) :: found, u)

def endList (s : List Char) : Except Stop (List Char) :=
  match skipBlank s with
  | [] => .error (.past .unfinishedList [])
  | c :: r =>
    if c = ']' then .ok r
    else if c = ',' then
      match skipBlank r with
      | [] => .error (.past .trailingCharacters [])
      | d :: t =>
        .error (.past (if d = ']' then .trailingComma else .trailingCharacters) (d :: t))
    else .error (.past .trailingCharacters (c :: r))

namespace Record

def readObject (record : Record α ρ) (s : List Char) : Except Stop (ρ × List Char) :=
  match readMembers record.keys record.field [] true s with
  | .error e => .error e
  | .ok (found, r) =>
    match record.make fun k => found.lookup k with
    | .error key => .error (.here (.missingField key) r)
    | .ok x => .ok (x, r)

def readList (record : Record α ρ) (s : List Char) : Except Stop (ρ × List Char) :=
  match readElements record.field true record.keys s with
  | .error e => .error e
  | .ok (found, r) =>
    match record.make fun k => found.lookup k with
    | .error _ =>
      let wanted := record.name ++ " with " ++ toString record.keys.length ++ " elements"
      .error (.here (.tooShort found.length wanted) (behindClosing ']' r))
    | .ok x =>
      match endList r with
      | .error e => .error e
      | .ok t => .ok (x, t)

def read (record : Record α ρ) (s : List Char) : Except Stop (ρ × List Char) :=
  match skipBlank s with
  | [] => .error (.past .unfinishedValue [])
  | c :: r =>
    if c = '{' then record.readObject r
    else if c = '[' then record.readList r
    else .error (mistyped record.name (c :: r))

end Record

end

def writeMember (member : String × List Char) : List Char :=
  writeString member.1.toList ++ ':' :: member.2

def writeObject (members : List (String × List Char)) : List Char :=
  '{' :: (List.intercalate [','] (members.map writeMember) ++ ['}'])

end HeroPage.Json
