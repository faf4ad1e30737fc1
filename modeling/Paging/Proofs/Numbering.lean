import Paging.Proofs.Binding

/-! Pieces in print. A parameter or a label without a name of its own takes the next number of its
kind, so what a list of pieces prints depends only on how many numbers of its kinds are taken. -/
namespace Paging

def Fields.insertAll (fields new : Fields) : Fields :=
  new.foldl (fun fs f => fs.insert f.1 f.2) fields

theorem Fields.insertAll_append (fields new more : Fields) :
    fields.insertAll (new ++ more) = (fields.insertAll new).insertAll more :=
  List.foldl_append

theorem Fields.mem_insert {fields : Fields} {name name' : Text} {v : Value} :
    name' ∈ (fields.insert name v).map Prod.fst ↔ name' = name ∨ name' ∈ fields.map Prod.fst := by
  induction fields with
  | nil => simp [insert]
  | cons f fields ih =>
    rw [insert]
    split
    · rename_i hname
      simp [hname]
    · simp only [List.map_cons, List.mem_cons, ih]
      tauto

theorem Fields.mem_insertAll {fields new : Fields} {name : Text} :
    name ∈ (fields.insertAll new).map Prod.fst ↔
      name ∈ fields.map Prod.fst ∨ name ∈ new.map Prod.fst := by
  induction new generalizing fields with
  | nil => simp [insertAll]
  | cons f new ih =>
    have hstep : fields.insertAll (f :: new) = (fields.insert f.1 f.2).insertAll new := rfl
    rw [hstep, ih, mem_insert, List.map_cons, List.mem_cons]
    tauto

namespace Sql

def numberedName (seed : Text) (n : ℕ) : Text := seed ++ "_" ++ toString n

namespace Piece

def kind? : Piece → Option Text
  | .bind (.numbered seed) _ | .label seed => some seed
  | _ => none

def given? : Piece → Option Text
  | .bind (.given name) _ => some name
  | _ => none

/-- A piece in print where so many numbers of each kind are taken. -/
def shown (taken : Text → ℕ) : Piece → Text
  | .text s => s
  | .bind (.given name) b => Printed.marker name b
  | .bind (.numbered seed) b => Printed.marker (numberedName seed (taken seed + 1)) b
  | .label seed => identifier (numberedName seed (taken seed + 1))

def fields (taken : Text → ℕ) : Piece → Fields
  | .bind (.given name) b => [(name, b.value)]
  | .bind (.numbered seed) b => [(numberedName seed (taken seed + 1), b.value)]
  | _ => []

def uses (taken : Text → ℕ) : Piece → List (Text × Use)
  | .bind (.given name) b => [(name, ⟨false, b.expanding⟩)]
  | .bind (.numbered seed) b => [(numberedName seed (taken seed + 1), ⟨true, b.expanding⟩)]
  | _ => []

end Piece

namespace Pieces

/-- How many numbers of each kind are taken behind some pieces. -/
def after (taken : Text → ℕ) (ps : List Piece) (seed : Text) : ℕ :=
  taken seed + ps.countP fun p => p.kind? = some seed

def shown (taken : Text → ℕ) : List Piece → Text
  | [] => ""
  | p :: ps => p.shown taken ++ shown (after taken [p]) ps

def fields (taken : Text → ℕ) : List Piece → Fields
  | [] => []
  | p :: ps => p.fields taken ++ fields (after taken [p]) ps

def uses (taken : Text → ℕ) : List Piece → List (Text × Use)
  | [] => []
  | p :: ps => p.uses taken ++ uses (after taken [p]) ps

variable (taken taken' : Text → ℕ)

@[simp] theorem after_nil : after taken [] = taken := rfl

theorem after_append (ps qs : List Piece) : after taken (ps ++ qs) = after (after taken ps) qs := by
  funext seed
  simp [after, Nat.add_assoc]

theorem after_cons (p : Piece) (ps : List Piece) :
    after taken (p :: ps) = after (after taken [p]) ps :=
  after_append taken [p] ps

theorem shown_append (ps qs : List Piece) :
    shown taken (ps ++ qs) = shown taken ps ++ shown (after taken ps) qs := by
  induction ps generalizing taken with
  | nil => simp [shown]
  | cons p ps ih =>
    rw [List.cons_append, shown, ih, shown, after_cons taken p ps, Text.append_assoc]

theorem fields_append (ps qs : List Piece) :
    fields taken (ps ++ qs) = fields taken ps ++ fields (after taken ps) qs := by
  induction ps generalizing taken with
  | nil => simp [fields]
  | cons p ps ih =>
    rw [List.cons_append, fields, ih, fields, after_cons taken p ps, List.append_assoc]

theorem uses_append (ps qs : List Piece) :
    uses taken (ps ++ qs) = uses taken ps ++ uses (after taken ps) qs := by
  induction ps generalizing taken with
  | nil => simp [uses]
  | cons p ps ih => rw [List.cons_append, uses, ih, uses, after_cons taken p ps, List.append_assoc]

theorem map_fst_uses (ps : List Piece) :
    (uses taken ps).map Prod.fst = (fields taken ps).map Prod.fst := by
  induction ps generalizing taken with
  | nil => rfl
  | cons p ps ih =>
    have hown : (p.uses taken).map Prod.fst = (p.fields taken).map Prod.fst := by
      cases p with
      | bind name b => cases name <;> rfl
      | _ => rfl
    rw [uses, fields, List.map_append, List.map_append, hown, ih]

/-! ### Numbers that matter -/

variable {taken taken'}

theorem shown_congr {ps : List Piece}
    (h : ∀ p ∈ ps, ∀ seed, p.kind? = some seed → taken seed = taken' seed) :
    shown taken ps = shown taken' ps ∧ fields taken ps = fields taken' ps ∧
      uses taken ps = uses taken' ps := by
  induction ps generalizing taken taken' with
  | nil => exact ⟨rfl, rfl, rfl⟩
  | cons p ps ih =>
    obtain ⟨hp, hps⟩ := List.forall_mem_cons.mp h
    have hrest : shown (after taken [p]) ps = shown (after taken' [p]) ps ∧
        fields (after taken [p]) ps = fields (after taken' [p]) ps ∧
        uses (after taken [p]) ps = uses (after taken' [p]) ps := by
      refine ih fun p' hp' seed hseed => ?_
      rw [after, after, hps p' hp' seed hseed]
    have hown : p.shown taken = p.shown taken' ∧ p.fields taken = p.fields taken' ∧
        p.uses taken = p.uses taken' := by
      cases p with
      | text => exact ⟨rfl, rfl, rfl⟩
      | label seed => simp [Piece.shown, Piece.fields, Piece.uses, hp seed rfl]
      | bind name b =>
        cases name with
        | given => exact ⟨rfl, rfl, rfl⟩
        | numbered seed => simp [Piece.shown, Piece.fields, Piece.uses, hp seed rfl]
    simp only [shown, fields, uses, hrest, hown, and_self]

/-- The values of parameters do not depend on their names. -/
theorem map_snd_fields (ps : List Piece) (taken taken' : Text → ℕ) :
    (fields taken ps).map Prod.snd = (fields taken' ps).map Prod.snd := by
  induction ps generalizing taken taken' with
  | nil => rfl
  | cons p ps ih =>
    have hown : (p.fields taken).map Prod.snd = (p.fields taken').map Prod.snd := by
      cases p with
      | bind name b => cases name <;> rfl
      | _ => rfl
    rw [fields, fields, List.map_append, List.map_append, hown, ih]

def Unnumbered (ps : List Piece) : Prop := ∀ p ∈ ps, p.kind? = none

theorem Unnumbered.after_eq {ps : List Piece} (h : Unnumbered ps) (taken : Text → ℕ) :
    after taken ps = taken := by
  funext seed
  have hnone : ps.countP (fun p => p.kind? = some seed) = 0 :=
    List.countP_eq_zero.mpr fun p hp => by simp [h p hp]
  rw [after, hnone, Nat.add_zero]

theorem Unnumbered.uses_eq {ps : List Piece} (h : Unnumbered ps) (taken taken' : Text → ℕ) :
    uses taken ps = uses taken' ps :=
  (shown_congr fun p hp seed hseed => by rw [h p hp] at hseed; cases hseed).2.2

/-! ### Names -/

theorem numberedName_inj {seed seed' : Text} {n n' : ℕ}
    (h : numberedName seed n = numberedName seed' n') : seed = seed' ∧ n = n' := by
  have hdigit (n : ℕ) : ∀ c ∈ letters (Nat.toDigits 10 n), (c != '_') = true := by
    intro c hc
    obtain ⟨d, hd, rfl⟩ := List.mem_map.mp hc
    have hd := Json.isDigits_toDigits n d hd
    have hne : d ≠ '_' := by
      rintro rfl
      exact absurd hd (by decide)
    simpa using hne
  -- Read from behind, the digits end at the first underscore.
  have hread (seed : Text) (n : ℕ) :
      (numberedName seed n).toList.reverse.span (· != Letter.char '_') =
        ((letters (Nat.toDigits 10 n)).reverse, .char '_' :: seed.toList.reverse) := by
    have hlist : (numberedName seed n).toList.reverse =
        (letters (Nat.toDigits 10 n)).reverse ++ .char '_' :: seed.toList.reverse := by
      simp [numberedName, Nat.repr]
    have hdigits : ∀ c ∈ (letters (Nat.toDigits 10 n)).reverse, (c != '_') = true := fun c hc =>
      hdigit n c (List.mem_reverse.mp hc)
    rw [hlist, List.span_eq_takeWhile_dropWhile, List.takeWhile_append_of_pos hdigits,
      List.dropWhile_append_of_pos hdigits]
    simp
  have hpair := (hread seed n).symm.trans ((congrArg _ (by rw [h])).trans (hread seed' n'))
  obtain ⟨hdigits, hseed⟩ := Prod.mk.inj hpair
  refine ⟨?_, ?_⟩
  · rw [← Text.toList_inj]
    exact List.reverse_injective (List.cons.inj hseed).2
  · have hdigits' := Text.letters_injective (List.reverse_injective hdigits)
    calc
      n = Nat.ofDigitChars 10 (Nat.toDigits 10 n) 0 := Nat.ofDigitChars_ten_toDigits.symm
      _ = n' := by rw [hdigits', Nat.ofDigitChars_ten_toDigits]

theorem mem_fields {ps : List Piece} {taken : Text → ℕ} {f : Text × Value}
    (h : f ∈ fields taken ps) : (∃ p ∈ ps, p.given? = some f.1) ∨
      ∃ seed n, f.1 = numberedName seed n ∧ n ≤ after taken ps seed := by
  induction ps generalizing taken with
  | nil => cases h
  | cons p ps ih =>
    rcases List.mem_append.mp h with h | h
    · cases p with
      | bind name b =>
        cases name with
        | given name =>
          obtain rfl := List.mem_singleton.mp h
          exact .inl ⟨_, List.mem_cons_self, rfl⟩
        | numbered seed =>
          obtain rfl := List.mem_singleton.mp h
          refine .inr ⟨seed, _, rfl, ?_⟩
          rw [after_cons]
          simp [after, Piece.kind?]
      | _ => cases h
    · rw [after_cons]
      exact (ih h).imp_left fun ⟨p', hp', hgiven⟩ => ⟨p', List.mem_cons_of_mem _ hp', hgiven⟩

end Pieces

namespace Printed

def numbers (p : Printed) (seed : Text) : ℕ := (p.taken.lookup seed).getD 0

theorem numbers_take (p : Printed) (seed : Text) :
    (p.take seed).numbers = Pieces.after p.numbers [.label seed] := by
  funext seed'
  by_cases h : seed' = seed
  · subst h
    simp [numbers, take, Pieces.after, Piece.kind?]
  · have hne : (seed' == seed) = false := by simpa using h
    simp [numbers, take, Pieces.after, Piece.kind?, List.lookup_cons, hne, Ne.symm h]

theorem add_eq (p : Printed) (piece : Piece) :
    (p.add piece).sql = p.sql ++ piece.shown p.numbers ∧
      (p.add piece).params = p.params.insertAll (piece.fields p.numbers) ∧
      (p.add piece).uses = p.uses ++ piece.uses p.numbers ∧
      (p.add piece).numbers = Pieces.after p.numbers [piece] := by
  cases piece with
  | text s => exact ⟨rfl, rfl, (List.append_nil _).symm, rfl⟩
  | label seed => exact ⟨rfl, rfl, (List.append_nil _).symm, p.numbers_take seed⟩
  | bind name b =>
    cases name with
    | given name => exact ⟨rfl, rfl, rfl, rfl⟩
    | numbered seed => exact ⟨rfl, rfl, rfl, p.numbers_take seed⟩

theorem foldl_add (ps : List Piece) (p : Printed) :
    (ps.foldl add p).sql = p.sql ++ Pieces.shown p.numbers ps ∧
      (ps.foldl add p).params = p.params.insertAll (Pieces.fields p.numbers ps) ∧
      (ps.foldl add p).uses = p.uses ++ Pieces.uses p.numbers ps := by
  induction ps generalizing p with
  | nil => exact ⟨by simp [Pieces.shown], rfl, by simp [Pieces.uses]⟩
  | cons piece ps ih =>
    obtain ⟨hsql, hparams, huses, hnumbers⟩ := p.add_eq piece
    obtain ⟨hsql', hparams', huses'⟩ := ih (p.add piece)
    rw [List.foldl_cons, hsql', hparams', huses', hsql, hparams, huses, hnumbers, Pieces.shown,
      Pieces.fields, Pieces.uses, Fields.insertAll_append, Text.append_assoc, List.append_assoc]
    exact ⟨rfl, rfl, rfl⟩

end Printed

/-- Pieces are printed one behind the other, with their parameters by name. -/
theorem print_eq (ps : List Piece) :
    (print ps).sql = Pieces.shown (fun _ => 0) ps ∧
      (print ps).params = Fields.insertAll [] (Pieces.fields (fun _ => 0) ps) ∧
      (print ps).uses = Pieces.uses (fun _ => 0) ps := by
  obtain ⟨hsql, hparams, huses⟩ := Printed.foldl_add ps {}
  exact ⟨hsql.trans (Text.empty_append _), hparams, huses⟩

/-! ### Lists of texts, and clauses -/

open Pieces

theorem commas_cons_cons (g g' : List Piece) (gs : List (List Piece)) :
    commas (g :: g' :: gs) = g ++ (.text ", " :: commas (g' :: gs)) := by
  simp [commas, List.intercalate]

/-- Nothing but texts. -/
def Pieces.Silent (ps : List Piece) : Prop := ∀ p ∈ ps, ∃ s, p = .text s

namespace Pieces.Silent

variable {ps qs : List Piece}

theorem append (hp : Silent ps) (hq : Silent qs) : Silent (ps ++ qs) :=
  List.forall_mem_append.mpr ⟨hp, hq⟩

theorem unnumbered (h : Silent ps) : Unnumbered ps := by
  intro p hp
  obtain ⟨s, rfl⟩ := h p hp
  rfl

theorem fields_eq (h : Silent ps) (taken : Text → ℕ) : fields taken ps = [] := by
  induction ps generalizing taken with
  | nil => rfl
  | cons p ps ih =>
    obtain ⟨⟨s, rfl⟩, hps⟩ := List.forall_mem_cons.mp h
    exact ih hps _

theorem uses_eq (h : Silent ps) (taken : Text → ℕ) : uses taken ps = [] := by
  simpa [h.fields_eq taken] using map_fst_uses taken ps

theorem commas {groups : List (List Piece)} (h : ∀ g ∈ groups, Silent g) :
    Silent (commas groups) := by
  induction groups with
  | nil => intro p hp; cases hp
  | cons g groups ih =>
    obtain ⟨hg, hgroups⟩ := List.forall_mem_cons.mp h
    cases groups with
    | nil => simpa [Sql.commas, List.intercalate] using hg
    | cons g' groups =>
      rw [commas_cons_cons]
      exact hg.append (List.forall_mem_cons.mpr ⟨⟨_, rfl⟩, ih hgroups⟩)

theorem shown_commas {groups : List (List Piece)} (h : ∀ g ∈ groups, Silent g)
    (taken : Text → ℕ) :
    shown taken (Sql.commas groups) = Text.intercalate ", " (groups.map (shown taken)) := by
  induction groups with
  | nil => rfl
  | cons g groups ih =>
    obtain ⟨hg, hgroups⟩ := List.forall_mem_cons.mp h
    cases groups with
    | nil => simp [Sql.commas, List.intercalate]
    | cons g' groups =>
      have hcomma (ps : List Piece) : shown taken (.text ", " :: ps) = ", " ++ shown taken ps := rfl
      rw [commas_cons_cons, shown_append, hg.unnumbered.after_eq, hcomma, ih hgroups,
        List.map_cons, List.map_cons, List.map_cons, Text.intercalate_cons_cons,
        Text.append_assoc]

end Pieces.Silent

theorem Part.shown_pieces (parts : List Part) (taken : Text → ℕ) :
    (Pieces.shown taken (parts.map piece)).toList = parts.flatMap Part.shown ∧
      Pieces.fields taken (parts.map piece) = parts.flatMap Part.fields := by
  induction parts generalizing taken with
  | nil => exact ⟨rfl, rfl⟩
  | cons part parts ih =>
    obtain ⟨hshown, hfields⟩ := ih (after taken [part.piece])
    rw [List.map_cons, Pieces.shown, Text.toList_append, hshown, Pieces.fields, hfields,
      List.flatMap_cons, List.flatMap_cons]
    cases part with
    | char c => exact ⟨by simp [piece, Piece.shown, Part.shown], rfl⟩
    | bind name b => exact ⟨rfl, rfl⟩

theorem Part.unnumbered_pieces (parts : List Part) : Unnumbered (parts.map piece) := by
  intro p hp
  obtain ⟨part, -, rfl⟩ := List.mem_map.mp hp
  cases part <;> rfl

end Sql

end Paging
