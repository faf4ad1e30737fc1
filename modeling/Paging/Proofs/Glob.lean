import Mathlib.Data.List.Infix
import Paging.Cache.Remote
import Paging.Cache.Store
import Paging.Proofs.CanonicalText

/-! Patterns of a scan. A pattern is bytes, and so is what it is compared with: a star stands for
any run of bytes, a question mark for one byte, brackets for one of a class, and a backslash takes
the byte behind it as it is. A text followed by a star stands for what starts with the text just if
none of these signs occurs in the text. -/
namespace Paging.Cache.Glob

/-- A part of a pattern. -/
inductive Piece
  | run
  | one
  | exactly (b : UInt8)
  /-- One of the bytes in some ranges, or one of the others. -/
  | oneOf (negated : Bool) (ranges : List (UInt8 × UInt8))
  deriving DecidableEq

def Piece.takes : Piece → UInt8 → Bool
  | .run, _ => false
  | .one, _ => true
  | .exactly b, c => b == c
  | .oneOf negated ranges, c => (ranges.any fun r => r.1 ≤ c && c ≤ r.2) != negated

def range (a b : UInt8) : UInt8 × UInt8 := if a ≤ b then (a, b) else (b, a)

/-- Read a pattern; `open?` is the class whose bracket is open, which the end of the pattern
closes. -/
def piecesFrom (open? : Option (Bool × List (UInt8 × UInt8))) : List UInt8 → List Piece :=
  fun bs => match open?, bs with
  | none, [] => []
  | none, 0x2a :: r => .run :: piecesFrom none r
  | none, 0x3f :: r => .one :: piecesFrom none r
  | none, 0x5b :: 0x5e :: r => piecesFrom (some (true, [])) r
  | none, 0x5b :: r => piecesFrom (some (false, [])) r
  | none, 0x5c :: b :: r => .exactly b :: piecesFrom none r
  | none, b :: r => .exactly b :: piecesFrom none r
  | some (negated, ranges), [] => [.oneOf negated ranges]
  | some (negated, ranges), 0x5c :: b :: r => piecesFrom (some (negated, (b, b) :: ranges)) r
  | some (negated, ranges), 0x5d :: r => .oneOf negated ranges :: piecesFrom none r
  | some (negated, ranges), a :: 0x2d :: b :: r =>
    piecesFrom (some (negated, range a b :: ranges)) r
  | some (negated, ranges), b :: r => piecesFrom (some (negated, (b, b) :: ranges)) r
termination_by structural bs => bs

def pieces (pattern : List UInt8) : List Piece := piecesFrom none pattern

def fits : List Piece → List UInt8 → Bool
  | [], bs => bs.isEmpty
  | .run :: ps, bs => bs.tails.any (fits ps)
  | p :: ps, b :: bs => p.takes b && fits ps bs
  | _ :: _, [] => false

/-- Is a key among those that a pattern stands for? -/
def accepts (pattern : String) (key : List UInt8) : Bool :=
  fits (pieces (Text.Utf8.encode pattern)) key

theorem fits_run {ps : List Piece} {bs : List UInt8} :
    fits (.run :: ps) bs = true ↔ ∃ behind, behind <:+ bs ∧ fits ps behind = true := by
  simp [fits]

theorem fits_cons {p : Piece} {ps : List Piece} {bs : List UInt8} (hp : p ≠ .run) :
    fits (p :: ps) bs = true ↔ ∃ b behind, bs = b :: behind ∧ p.takes b = true ∧
      fits ps behind = true := by
  cases bs with
  | nil => cases p <;> simp [fits] at hp ⊢
  | cons b bs => cases p <;> simp [fits] at hp ⊢

@[simp] theorem fits_last_run (bs : List UInt8) : fits [.run] bs = true := by
  rw [fits_run]
  exact ⟨[], List.nil_suffix, rfl⟩

/-! ### How much the pieces take -/

def fixed (ps : List Piece) : ℕ := ps.countP fun p => p ≠ .run

theorem fixed_lt_length {ps : List Piece} (h : .run ∈ ps) : fixed ps < ps.length := by
  refine Nat.lt_of_le_of_ne List.countP_le_length fun heq => ?_
  have hall := List.countP_eq_length.mp heq .run h
  simp at hall

theorem exists_fits_length_eq {ps : List Piece} {bs : List UInt8} (h : fits ps bs = true) :
    ∃ bs', fits ps bs' = true ∧ bs'.length = fixed ps := by
  induction ps generalizing bs with
  | nil => exact ⟨[], rfl, rfl⟩
  | cons p ps ih =>
    by_cases hp : p = .run
    · subst hp
      obtain ⟨behind, -, hbehind⟩ := fits_run.mp h
      obtain ⟨bs', hbs', hlength⟩ := ih hbehind
      exact ⟨bs', fits_run.mpr ⟨bs', List.suffix_rfl, hbs'⟩, by simpa [fixed] using hlength⟩
    · obtain ⟨b, behind, -, hb, hbehind⟩ := (fits_cons hp).mp h
      obtain ⟨bs', hbs', hlength⟩ := ih hbehind
      refine ⟨b :: bs', (fits_cons hp).mpr ⟨b, bs', rfl, hb, hbs'⟩, ?_⟩
      rw [fixed, List.countP_cons_of_pos (by simpa using hp), List.length_cons, hlength, fixed]

theorem length_eq_of_fits {ps : List Piece} {bs : List UInt8} (hrun : .run ∉ ps)
    (h : fits ps bs = true) : bs.length = ps.length := by
  induction ps generalizing bs with
  | nil => simpa [fits] using h
  | cons p ps ih =>
    simp only [List.mem_cons, not_or] at hrun
    obtain ⟨hp, hps⟩ := hrun
    obtain ⟨b, behind, rfl, -, hbehind⟩ := (fits_cons (Ne.symm hp)).mp h
    rw [List.length_cons, List.length_cons, ih hps hbehind]

/-! ### How many pieces there are -/

/-- No byte gives more than one piece, but a class that is open gives one at the end. -/
theorem length_piecesFrom_le (open? : Option (Bool × List (UInt8 × UInt8))) (bs : List UInt8) :
    (piecesFrom open? bs).length ≤ max open?.toList.length bs.length := by
  fun_induction piecesFrom open? bs <;> simp at * <;> omega

def token (b : UInt8) : Piece := if b = 0x2a then .run else if b = 0x3f then .one else .exactly b

theorem pieces_cons {b : UInt8} (hopen : b ≠ 0x5b) (hmark : b ≠ 0x5c) (bs : List UInt8) :
    pieces (b :: bs) = token b :: pieces bs := by
  by_cases hrun : b = 0x2a
  · simp [hrun, pieces, piecesFrom, token]
  · by_cases hone : b = 0x3f
    · simp [hone, pieces, piecesFrom, token]
    · rw [pieces, piecesFrom.eq_7]
      all_goals simp_all [token, pieces]

theorem pieces_append_star {bs : List UInt8} (hopen : 0x5b ∉ bs) (hmark : 0x5c ∉ bs) :
    pieces (bs ++ [0x2a]) = bs.map token ++ [.run] := by
  induction bs with
  | nil => simp [pieces, piecesFrom]
  | cons b bs ih =>
    simp only [List.mem_cons, not_or] at hopen hmark
    rw [List.cons_append, pieces_cons (Ne.symm hopen.1) (Ne.symm hmark.1), ih hopen.2 hmark.2]
    rfl

theorem length_pieces_le {b : UInt8} (hb : b = 0x5b ∨ b = 0x5c) {bs : List UInt8} (hbs : bs ≠ []) :
    (pieces (b :: bs)).length ≤ bs.length := by
  have hpos : 1 ≤ bs.length := List.length_pos_iff.mpr hbs
  rcases hb with rfl | rfl
  · by_cases hnegated : ∃ r, bs = 0x5e :: r
    · obtain ⟨r, rfl⟩ := hnegated
      have hle := length_piecesFrom_le (some (true, [])) r
      simp [pieces, piecesFrom] at hle ⊢
      omega
    · have hle := length_piecesFrom_le (some (false, [])) bs
      rw [pieces, piecesFrom.eq_5 _ fun r hr => hnegated ⟨r, hr⟩]
      simp at hle
      omega
  · obtain ⟨c, r, rfl⟩ := List.exists_cons_of_ne_nil hbs
    have hle := length_piecesFrom_le none r
    simpa [pieces, piecesFrom] using hle

theorem notMem_of_length_pieces {bs : List UInt8}
    (h : bs.length + 1 ≤ (pieces (bs ++ [0x2a])).length) : 0x5b ∉ bs ∧ 0x5c ∉ bs := by
  induction bs with
  | nil => simp
  | cons b bs ih =>
    rw [List.cons_append] at h
    by_cases hb : b = 0x5b ∨ b = 0x5c
    · have hle : (pieces (b :: (bs ++ [0x2a]))).length ≤ (bs ++ [0x2a]).length :=
        length_pieces_le hb (by simp)
      simp at h hle
      omega
    · rw [not_or] at hb
      rw [pieces_cons hb.1 hb.2] at h
      obtain ⟨hopen, hmark⟩ := ih (by simpa using h)
      simp [hopen, hmark, Ne.symm hb.1, Ne.symm hb.2]

/-! ### A text followed by a star -/

/-- The bytes that a pattern does not take as they are. -/
def signs : List UInt8 := [0x2a, 0x3f, 0x5b, 0x5c]

theorem fits_map_exactly {bs key : List UInt8} :
    fits (bs.map .exactly ++ [.run]) key = true ↔ bs <+: key := by
  induction bs generalizing key with
  | nil => simp
  | cons b bs ih =>
    rw [List.map_cons, List.cons_append, fits_cons (by simp)]
    constructor
    · rintro ⟨c, behind, rfl, hb, hbehind⟩
      obtain rfl : b = c := by simpa [Piece.takes] using hb
      exact List.cons_prefix_cons.mpr ⟨rfl, ih.mp hbehind⟩
    · intro h
      obtain ⟨behind, rfl⟩ := h
      exact ⟨b, bs ++ behind, rfl, by simp [Piece.takes], ih.mpr (List.prefix_append bs behind)⟩

theorem fits_of_plain {bs : List UInt8} (h : ∀ b ∈ bs, b ∉ signs) (key : List UInt8) :
    fits (pieces (bs ++ [0x2a])) key = true ↔ bs <+: key := by
  have htokens : bs.map token = bs.map .exactly := by
    refine List.map_congr_left fun b hb => ?_
    have hsign := h b hb
    simp only [signs, List.mem_cons, List.not_mem_nil, or_false, not_or] at hsign
    simp [token, hsign]
  have hopen : 0x5b ∉ bs := fun hmem => h _ hmem (by decide)
  have hmark : 0x5c ∉ bs := fun hmem => h _ hmem (by decide)
  rw [pieces_append_star hopen hmark, htokens, fits_map_exactly]

theorem fits_map_token {bs : List UInt8} (h : 0x2a ∉ bs) :
    fits (bs.map token ++ [.run]) (bs.map fun b => if b = 0x3f then 0 else b) = true := by
  induction bs with
  | nil => simp
  | cons b bs ih =>
    simp only [List.mem_cons, not_or] at h
    have hb : token b ≠ .run := by
      simp [token, Ne.symm h.1]
      split <;> simp
    rw [List.map_cons, List.cons_append, List.map_cons, fits_cons hb]
    refine ⟨_, _, rfl, ?_, ih h.2⟩
    by_cases hone : b = 0x3f
    · simp [token, hone, Piece.takes]
    · simp [token, hone, Ne.symm h.1, Piece.takes]

theorem plain_of_fits {bs : List UInt8}
    (h : ∀ key, fits (pieces (bs ++ [0x2a])) key = true ↔ bs <+: key) : ∀ b ∈ bs, b ∉ signs := by
  -- Keys of two lengths are taken, so there is a run among the pieces.
  have hrun : .run ∈ pieces (bs ++ [0x2a]) := by
    by_contra hrun
    have hself := length_eq_of_fits hrun ((h bs).mpr List.prefix_rfl)
    have hlonger := length_eq_of_fits hrun ((h (bs ++ [0])).mpr (List.prefix_append bs [0]))
    simp at hlonger
    omega
  -- No key is shorter than the text, so there are as many other pieces as bytes.
  have hfixed : bs.length ≤ fixed (pieces (bs ++ [0x2a])) := by
    obtain ⟨key, hkey, hlength⟩ := exists_fits_length_eq ((h bs).mpr List.prefix_rfl)
    rw [← hlength]
    exact ((h key).mp hkey).length_le
  have hpieces : bs.length + 1 ≤ (pieces (bs ++ [0x2a])).length := by
    have hlt := fixed_lt_length hrun
    omega
  obtain ⟨hopen, hmark⟩ := notMem_of_length_pieces hpieces
  rw [pieces_append_star hopen hmark] at hfixed
  have hstar : 0x2a ∉ bs := by
    intro hmem
    have htoken : .run ∈ bs.map token := List.mem_map.mpr ⟨0x2a, hmem, rfl⟩
    have hlt := fixed_lt_length htoken
    have hlast : fixed (bs.map token ++ [.run]) = fixed (bs.map token) := by
      simp [fixed, List.countP_append]
    rw [hlast] at hfixed
    rw [List.length_map] at hlt
    omega
  have hone : 0x3f ∉ bs := by
    intro hmem
    have hother := fits_map_token hstar
    rw [← pieces_append_star hopen hmark, h] at hother
    have heq := hother.eq_of_length (by simp)
    rw [heq] at hmem
    obtain ⟨b, -, hb⟩ := List.mem_map.mp hmem
    by_cases hself : b = 0x3f <;> simp [hself] at hb
  intro b hb hsign
  simp only [signs, List.mem_cons, List.not_mem_nil, or_false] at hsign
  rcases hsign with rfl | rfl | rfl | rfl
  · exact hstar hb
  · exact hone hb
  · exact hopen hb
  · exact hmark hb

/-- A star behind some bytes makes a pattern of what starts with them just if no sign is among
them. -/
theorem fits_iff_plain (bs : List UInt8) :
    (∀ key, fits (pieces (bs ++ [0x2a])) key = true ↔ bs <+: key) ↔ ∀ b ∈ bs, b ∉ signs :=
  ⟨plain_of_fits, fits_of_plain⟩

/-! ### Texts -/

def isSign (c : Char) : Bool := c = '*' || c = '?' || c = '[' || c = '\\'

theorem map_toNat_encodeLetter (c : Letter) : (Text.Utf8.encodeLetter c).map UInt8.toNat =
    Text.Utf8.lead c.toNat :: Text.Utf8.follow c.toNat := by
  rw [Text.Utf8.encodeLetter_eq, List.map_cons, Text.Utf8.toNat_follow]
  simp [Nat.mod_eq_of_lt (Text.Utf8.lead_lt c.toNat_lt)]

theorem exists_sign_encodeLetter (c : Char) :
    (∃ b ∈ Text.Utf8.encodeLetter c, b ∈ signs) ↔ isSign c = true := by
  have hsigns (b : UInt8) : b ∈ signs ↔ b.toNat ∈ [0x2a, 0x3f, 0x5b, 0x5c] := by
    simp [signs, ← UInt8.toNat_inj]
  have hchar : isSign c = true ↔ c.toNat ∈ [0x2a, 0x3f, 0x5b, 0x5c] := by
    simp [isSign, ← Char.toNat_inj, or_assoc]
  -- Bytes of a character beyond ASCII are beyond the signs.
  have hbytes : (∃ n ∈ Text.Utf8.lead c.toNat :: Text.Utf8.follow c.toNat,
      n ∈ [0x2a, 0x3f, 0x5b, 0x5c]) ↔ c.toNat ∈ [0x2a, 0x3f, 0x5b, 0x5c] := by
    unfold Text.Utf8.lead Text.Utf8.follow
    split_ifs <;> simp <;> omega
  rw [hchar, ← hbytes, ← Letter.toNat_char, ← map_toNat_encodeLetter]
  simp only [hsigns, List.mem_map, exists_exists_and_eq_and]

theorem plain_encode_iff (text : String) :
    (∀ b ∈ Text.Utf8.encode text, b ∉ signs) ↔ ∀ c ∈ text.toList, isSign c = false := by
  have hchar (c : Char) : (∀ b ∈ Text.Utf8.encodeLetter c, b ∉ signs) ↔ isSign c = false := by
    rw [← Bool.not_eq_true, ← exists_sign_encodeLetter]
    simp
  simp only [Text.Utf8.encode, Text.toList_ofString, List.mem_flatMap, ← hchar]
  constructor
  · intro h c hc b hb
    exact h b ⟨c, char_mem_letters.mpr hc, hb⟩
  · rintro h b ⟨c, hc, hb⟩
    obtain ⟨d, hd, rfl⟩ := List.mem_map.mp hc
    exact h d hd b hb

theorem encode_append (s t : String) :
    Text.Utf8.encode (s ++ t : String) = Text.Utf8.encode s ++ Text.Utf8.encode t := by
  simp [Text.Utf8.encode]

/-- What is deleted under a text is what starts with it just if there is no sign in the text. -/
theorem accepts_iff_plain (text : String) :
    (∀ key, accepts (Remote.patternUnder text) key = true ↔ Text.Utf8.encode text <+: key) ↔
      ∀ c ∈ text.toList, isSign c = false := by
  have hpattern : Text.Utf8.encode (Remote.patternUnder text) = Text.Utf8.encode text ++ [0x2a] :=
    encode_append text "*"
  simp only [accepts, hpattern]
  rw [fits_iff_plain, plain_encode_iff]

theorem encode_prefix_iff {s t : String} :
    Text.Utf8.encode s <+: Text.Utf8.encode t ↔ s.toList <+: t.toList := by
  have hlist (cs ds : List Char) :
      (letters cs).flatMap Text.Utf8.encodeLetter <+: (letters ds).flatMap Text.Utf8.encodeLetter ↔
        cs <+: ds := by
    induction cs generalizing ds with
    | nil => simp
    | cons c cs ih =>
      cases ds with
      | nil => simp [Text.Utf8.encodeLetter_eq]
      | cons d ds =>
        rw [letters_cons, letters_cons, List.flatMap_cons, List.flatMap_cons,
          List.cons_prefix_cons, ← ih]
        constructor
        · rintro ⟨r, hr⟩
          rw [List.append_assoc] at hr
          obtain ⟨⟨⟩, hrest⟩ := Text.Utf8.encodeLetter_append_inj hr
          exact ⟨rfl, r, hrest⟩
        · rintro ⟨rfl, h⟩
          exact (List.prefix_append_right_inj _).mpr h
  exact hlist s.toList t.toList

theorem encode_prefix_append_iff (space label key : String) :
    Text.Utf8.encode (space ++ label : String) <+: Text.Utf8.encode (space ++ key : String) ↔
      Store.isUnder label key = true := by
  rw [encode_prefix_iff, String.toList_append, String.toList_append, List.prefix_append_right_inj,
    Store.isUnder, List.isPrefixOf_iff_prefix]

end Paging.Cache.Glob
