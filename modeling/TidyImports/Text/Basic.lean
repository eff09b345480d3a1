/-! A text is the list of its characters. Positions in a text are byte offsets of its UTF-8 form,
so every cut goes through the widths of the characters before it: `splitAt?` cuts only between two
characters, `upto` and `after` are its total halves. -/
namespace TidyImports

/-- A text is the list of its characters; offsets into it count UTF-8 bytes. -/
abbrev Text := List Char

namespace Text

def width : Text → Nat
  | [] => 0
  | c :: t => c.utf8Size + width t

@[simp] theorem width_nil : width [] = 0 := rfl

@[simp] theorem width_cons (c : Char) (t : Text) : width (c :: t) = c.utf8Size + width t := rfl

theorem width_append (s t : Text) : width (s ++ t) = width s + width t := by
  induction s with
  | nil => simp
  | cons c s ih => simp [ih, Nat.add_assoc]

/-- The two parts of a text around a byte offset, when the offset falls between two characters. -/
def splitAt? : Text → Nat → Option (Text × Text)
  | t, 0 => some ([], t)
  | [], _ + 1 => none
  | c :: t, n + 1 =>
    if c.utf8Size ≤ n + 1 then
      (splitAt? t (n + 1 - c.utf8Size)).map fun (s, r) => (c :: s, r)
    else none

theorem splitAt?_width (s r : Text) : splitAt? (s ++ r) (width s) = some (s, r) := by
  induction s with
  | nil => cases r <;> simp [splitAt?]
  | cons c s ih =>
    have hc : 0 < c.utf8Size := c.utf8Size_pos
    obtain ⟨k, hk⟩ : ∃ k, c.utf8Size + width s = k + 1 := ⟨c.utf8Size + width s - 1, by omega⟩
    have hle : c.utf8Size ≤ k + 1 := by omega
    have hsub : k + 1 - c.utf8Size = width s := by omega
    simp [splitAt?, hk, hle, hsub, ih]

theorem splitAt?_eq_some {t s r : Text} {n : Nat} (h : splitAt? t n = some (s, r)) :
    t = s ++ r ∧ n = width s := by
  induction t generalizing n s r with
  | nil =>
    cases n with
    | zero => simp [splitAt?] at h; simp [h]
    | succ n => simp [splitAt?] at h
  | cons c t ih =>
    cases n with
    | zero => obtain ⟨rfl, rfl⟩ := (by simpa [splitAt?] using h : s = [] ∧ c :: t = r); simp
    | succ n =>
      simp only [splitAt?] at h
      split at h
      · obtain ⟨⟨u, v⟩, hu, hv⟩ := Option.map_eq_some_iff.1 h
        obtain ⟨rfl, hn⟩ := ih hu
        simp only [Prod.mk.injEq] at hv
        obtain ⟨rfl, rfl⟩ := hv
        refine ⟨rfl, ?_⟩
        simp only [width_cons]
        omega
      · simp at h

def removeAt? (t : Text) (n : Nat) : Option Text :=
  match splitAt? t n with
  | some (s, _ :: r) => some (s ++ r)
  | _ => none

theorem removeAt?_width (s r : Text) (c : Char) :
    removeAt? (s ++ c :: r) (width s) = some (s ++ r) := by
  rw [removeAt?, splitAt?_width]

def isBoundary (t : Text) (n : Nat) : Bool := (splitAt? t n).isSome

def upto : Text → Nat → Text
  | _, 0 => []
  | [], _ + 1 => []
  | c :: t, n + 1 => c :: upto t (n + 1 - c.utf8Size)

def after : Text → Nat → Text
  | t, 0 => t
  | [], _ + 1 => []
  | c :: t, n + 1 => after t (n + 1 - c.utf8Size)

theorem upto_append_after (t : Text) (n : Nat) : upto t n ++ after t n = t := by
  induction t generalizing n with
  | nil => cases n <;> rfl
  | cons c t ih => cases n <;> simp [upto, after, ih]

theorem upto_width (s r : Text) : upto (s ++ r) (width s) = s := by
  induction s with
  | nil => cases r <;> rfl
  | cons c s ih =>
    have hc : 0 < c.utf8Size := c.utf8Size_pos
    obtain ⟨k, hk⟩ : ∃ k, c.utf8Size + width s = k + 1 := ⟨c.utf8Size + width s - 1, by omega⟩
    have hsub : k + 1 - c.utf8Size = width s := by omega
    simp [upto, hk, hsub, ih]

theorem after_width (s r : Text) : after (s ++ r) (width s) = r := by
  have h := upto_append_after (s ++ r) (width s)
  rw [upto_width] at h
  exact List.append_cancel_left h

def slice (t : Text) (start stop : Nat) : Text := upto (after t start) (stop - start)

def stripHead? : Text → Text → Option Text
  | [], t => some t
  | _ :: _, [] => none
  | c :: head, d :: t => if c = d then stripHead? head t else none

theorem stripHead?_eq_some {head t r : Text} : stripHead? head t = some r ↔ t = head ++ r := by
  induction head generalizing t with
  | nil => simp [stripHead?]
  | cons c head ih =>
    cases t with
    | nil => simp [stripHead?]
    | cons d t =>
      by_cases h : c = d
      · subst h; simp [stripHead?, ih]
      · simp [stripHead?, h, Ne.symm h]

def stripTail? (tail t : Text) : Option Text := (stripHead? tail.reverse t.reverse).map List.reverse

def startsWith (t head : Text) : Bool := (stripHead? head t).isSome

def endsWith (t tail : Text) : Bool := (stripTail? tail t).isSome

def breakOn? (needle : Text) : Text → Option (Text × Text)
  | [] => if needle.isEmpty then some ([], []) else none
  | c :: t =>
    match stripHead? needle (c :: t) with
    | some r => some ([], r)
    | none => (breakOn? needle t).map fun (s, r) => (c :: s, r)

def contains (t needle : Text) : Bool := (breakOn? needle t).isSome

def lineFeeds (t : Text) : Nat := t.count '\n'

def pieces (sep : Char) : Text → List Text
  | [] => [[]]
  | c :: t =>
    if c = sep then [] :: pieces sep t
    else
      match pieces sep t with
      | [] => [[c]]
      | p :: ps => (c :: p) :: ps

def glue (sep : Text) : List Text → Text
  | [] => []
  | [p] => p
  | p :: q :: ps => p ++ sep ++ glue sep (q :: ps)

theorem pieces_ne_nil (sep : Char) (t : Text) : pieces sep t ≠ [] := by
  cases t with
  | nil => simp [pieces]
  | cons c t =>
    simp only [pieces]
    split
    · simp
    · split <;> simp

theorem glue_pieces (sep : Char) (t : Text) : glue [sep] (pieces sep t) = t := by
  induction t with
  | nil => rfl
  | cons c t ih =>
    simp only [pieces]
    have hne := pieces_ne_nil sep t
    split
    · next h =>
      subst h
      cases hp : pieces c t with
      | nil => exact absurd hp hne
      | cons p ps => rw [hp] at ih; simp [glue, ih]
    · cases hp : pieces sep t with
      | nil => exact absurd hp hne
      | cons p ps =>
        rw [hp] at ih
        cases ps with
        | nil => simpa [glue] using ih
        | cons q qs => simpa [glue] using ih

def isAsciiLetter (c : Char) : Bool := ('a' ≤ c && c ≤ 'z') || ('A' ≤ c && c ≤ 'Z')

def asciiLower (t : Text) : Text := t.map Char.toLower

end Text

end TidyImports
