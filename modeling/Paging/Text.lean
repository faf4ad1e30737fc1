/-!
Texts as clients send them: sequences of code points, among which half a surrogate pair may stand
alone. Texts of characters only, such as those of the settings, are strings.
-/

namespace Paging

/-- A code point: a character, or half a surrogate pair by its place among the 2048 halves. -/
inductive Letter
  | char (c : Char)
  | half (n : Fin 2048)
  deriving DecidableEq

namespace Letter

instance : Coe Char Letter := ⟨char⟩

def toNat : Letter → Nat
  | char c => c.toNat
  | half n => 0xd800 + n

def ofNat (n : Nat) : Letter :=
  if h : 0xd800 ≤ n ∧ n < 0xe000 then half ⟨n - 0xd800, by omega⟩ else char (Char.ofNat n)

/-- A property of characters, which no half of a pair has. -/
def has (p : Char → Bool) : Letter → Bool
  | char c => p c
  | half _ => false

def isDigit : Letter → Bool := has Char.isDigit

def isAlpha : Letter → Bool := has Char.isAlpha

def isAlphanum : Letter → Bool := has Char.isAlphanum

def isLower : Letter → Bool := has Char.isLower

def isUpper : Letter → Bool := has Char.isUpper

/-- Change a character; halves of pairs stay. -/
def map (f : Char → Char) : Letter → Letter
  | char c => char (f c)
  | half n => half n

def toLower : Letter → Letter := map Char.toLower

def toUpper : Letter → Letter := map Char.toUpper

def char? : Letter → Option Char
  | char c => some c
  | half _ => none

@[simp] theorem has_char (p : Char → Bool) (c : Char) : has p (char c) = p c := rfl

theorem beq_char (c d : Char) : (char c == char d) = (c == d) :=
  decide_eq_decide.mpr ⟨char.inj, congrArg char⟩

-- Not by `rfl`: the rewrite has to carry the instances that decide about the number with it.
@[simp] theorem toNat_char (c : Char) : (char c).toNat = c.toNat := by rw [toNat]

theorem toNat_valid (c : Char) :
    c.toNat < 0xd800 ∨ (0xdfff < c.toNat ∧ c.toNat < 0x110000) := c.valid

theorem toNat_inj {c d : Letter} : c.toNat = d.toNat ↔ c = d := by
  refine ⟨fun h => ?_, fun h => h ▸ rfl⟩
  cases c with
  | char c =>
    cases d with
    | char d => exact congrArg char (Char.toNat_inj.mp h)
    | half m =>
      have hvalid := toNat_valid c
      simp only [toNat] at h
      omega
  | half n =>
    cases d with
    | char d =>
      have hvalid := toNat_valid d
      simp only [toNat] at h
      omega
    | half m =>
      simp only [toNat] at h
      exact congrArg half (Fin.ext (by omega))

theorem toNat_lt (c : Letter) : c.toNat < 0x110000 := by
  cases c with
  | char c =>
    have hvalid := toNat_valid c
    simp only [toNat]
    omega
  | half n =>
    simp only [toNat]
    omega

@[simp] theorem ofNat_toNat (c : Letter) : ofNat c.toNat = c := by
  cases c with
  | char c =>
    have hvalid := toNat_valid c
    have hc : ¬ (0xd800 ≤ c.toNat ∧ c.toNat < 0xe000) := by omega
    simp [ofNat, toNat, hc]
  | half n =>
    have hn : 0xd800 ≤ 0xd800 + n.val ∧ 0xd800 + n.val < 0xe000 := by omega
    simp only [ofNat, toNat, hn, and_self, ↓reduceDIte, Nat.add_sub_cancel_left]

end Letter

/-- Characters as letters. -/
def letters (cs : List Char) : List Letter := cs.map Letter.char

@[simp] theorem letters_nil : letters [] = [] := rfl

@[simp] theorem letters_cons (c : Char) (cs : List Char) :
    letters (c :: cs) = Letter.char c :: letters cs := rfl

@[simp] theorem letters_append (cs ds : List Char) :
    letters (cs ++ ds) = letters cs ++ letters ds := List.map_append

@[simp] theorem length_letters (cs : List Char) : (letters cs).length = cs.length :=
  List.length_map _

@[simp] theorem letters_eq_nil {cs : List Char} : letters cs = [] ↔ cs = [] := List.map_eq_nil_iff

@[simp] theorem isEmpty_letters (cs : List Char) : (letters cs).isEmpty = cs.isEmpty :=
  List.isEmpty_map

@[simp] theorem char_mem_letters {c : Char} {cs : List Char} :
    .char c ∈ letters cs ↔ c ∈ cs := by
  simp [letters]

@[simp] theorem head?_letters (cs : List Char) : (letters cs).head? = cs.head?.map Letter.char :=
  List.head?_map

structure Text where
  ofList ::
  toList : List Letter
  deriving DecidableEq

namespace Text

def ofString (s : String) : Text := ofList (letters s.toList)

instance : Coe String Text := ⟨ofString⟩

instance : Inhabited Text := ⟨""⟩

instance : Append Text := ⟨fun s t => ofList (s.toList ++ t.toList)⟩

def codes (s : Text) : List Nat := s.toList.map Letter.toNat

/-- The order of code points. -/
instance : LT Text := ⟨fun s t => List.lt s.codes t.codes⟩

instance (s t : Text) : Decidable (s < t) := List.decidableLT s.codes t.codes

def singleton (c : Letter) : Text := ofList [c]

def length (s : Text) : Nat := s.toList.length

def isEmpty (s : Text) : Bool := s.toList.isEmpty

/-- The texts of a list with `sep` between them. -/
def intercalate (sep : Text) (ss : List Text) : Text :=
  ofList (sep.toList.intercalate (ss.map toList))

/-- No half of a surrogate pair stands in the text. -/
def isWhole (s : Text) : Bool := s.toList.all fun c => c.char?.isSome

/-- The string of a text that is whole. -/
def string? (s : Text) : Option String := (s.toList.mapM Letter.char?).map String.ofList

@[simp] theorem toList_append (s t : Text) : (s ++ t).toList = s.toList ++ t.toList := rfl

@[simp] theorem toList_singleton (c : Letter) : (singleton c).toList = [c] := rfl

@[simp] theorem toList_ofList (cs : List Letter) : (ofList cs).toList = cs := rfl

@[simp] theorem ofList_toList (s : Text) : ofList s.toList = s := rfl

@[simp] theorem toList_ofString (s : String) : (s : Text).toList = letters s.toList := rfl

@[simp] theorem intercalate_nil (sep : Text) : intercalate sep [] = "" := rfl

@[simp] theorem intercalate_singleton (sep s : Text) : intercalate sep [s] = s := by
  simp [intercalate]

theorem intercalate_cons_cons (sep s t : Text) (ss : List Text) :
    intercalate sep (s :: t :: ss) = s ++ sep ++ intercalate sep (t :: ss) := by
  refine congrArg ofList ?_
  simp [intercalate]

theorem toList_inj {s t : Text} : s.toList = t.toList ↔ s = t :=
  ⟨fun h => congrArg ofList h, fun h => h ▸ rfl⟩

theorem toList_eq_nil_iff {s : Text} : s.toList = [] ↔ s = "" :=
  toList_inj (t := "")

@[simp] theorem ofList_eq_empty_iff {cs : List Letter} : ofList cs = "" ↔ cs = [] :=
  toList_eq_nil_iff.symm

@[simp] theorem isEmpty_iff {s : Text} : s.isEmpty = true ↔ s = "" :=
  List.isEmpty_iff.trans toList_eq_nil_iff

@[simp] theorem isEmpty_eq_false_iff {s : Text} : s.isEmpty = false ↔ s ≠ "" := by
  rw [← Bool.not_eq_true, isEmpty_iff]

theorem codes_inj {s t : Text} : s.codes = t.codes ↔ s = t :=
  (List.map_inj_right fun _ _ => Letter.toNat_inj.mp).trans toList_inj

theorem letters_injective {cs ds : List Char} (h : letters cs = letters ds) : cs = ds :=
  (List.map_inj_right fun _ _ => Letter.char.inj).mp h

@[simp] theorem ofString_inj {s t : String} : (s : Text) = t ↔ s = t :=
  ⟨fun h => String.toList_inj.mp (letters_injective (congrArg toList h)), fun h => h ▸ rfl⟩

@[simp] theorem ofString_append (s t : String) : ((s ++ t : String) : Text) = s ++ t := by
  refine toList_inj.mp ?_
  simp

theorem append_assoc (s t u : Text) : s ++ t ++ u = s ++ (t ++ u) :=
  toList_inj.mp (List.append_assoc ..)

@[simp] theorem empty_append (s : Text) : ("" : Text) ++ s = s := rfl

@[simp] theorem append_empty (s : Text) : s ++ ("" : Text) = s :=
  toList_inj.mp (List.append_nil _)

@[simp] theorem isWhole_ofString (s : String) : (s : Text).isWhole = true := by
  have hall (cs : List Char) : (letters cs).all (fun c => c.char?.isSome) = true := by
    induction cs with
    | nil => rfl
    | cons c cs ih => exact ih
  exact hall s.toList

@[simp] theorem string?_ofString (s : String) : (s : Text).string? = some s := by
  have hall (cs : List Char) : (letters cs).mapM Letter.char? = some cs := by
    induction cs with
    | nil => rfl
    | cons c cs ih => rw [letters_cons, List.mapM_cons, ih]; rfl
  have hs := hall s.toList
  show ((letters s.toList).mapM Letter.char?).map String.ofList = some s
  rw [hs, Option.map_some, String.ofList_toList]

end Text

end Paging
