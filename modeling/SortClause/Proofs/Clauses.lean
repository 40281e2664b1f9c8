import SortClause.Proofs.Requests
import SortClause.Proofs.Whitelist
/-!
Directives written clause by clause.  A clause is a key, perhaps with a space and a word after it
and more after that, and blanks around it all.  Blanks at the end may hide in the word or in what
follows it, and trimming takes them; the direction is the same with and without them
(`directionOf_append_of_blank`), so a clause asks for its key in the direction of its word
(`ofCandidate_trim_text`).  Main statement: a directive made of clauses expands to the destinations
of their keys, clause by clause (`expand_join_clauses`).
-/
namespace SortClause

open Text Request

/-- What may follow a key: a space, a word without spaces, and perhaps a second space and more. -/
structure Modifier where
  word : Text
  more : Option Text
  noSpace : ' ' ∉ word

def Modifier.text (m : Modifier) : Text := ' ' :: (m.word ++ m.more.elim [] (' ' :: ·))

/-- A clause of a directive, as it is written. -/
structure Clause where
  before : Text
  key : Text
  modifier : Option Modifier
  after : Text
  blank_before : Blank before
  key_ne_nil : key ≠ []
  key_solid : key.hasBlank = false
  blank_after : Blank after

namespace Clause

/-- What follows the key, up to the blanks at the end. -/
def tail (x : Clause) : Text := x.modifier.elim [] Modifier.text

def text (x : Clause) : Text := x.before ++ x.key ++ x.tail ++ x.after

/-- Descending if there is a word and it is `desc`, with blanks around it and in any case. -/
def direction (x : Clause) : Direction :=
  match x.modifier with
  | none => .asc
  | some m => if m.word.trim.map Char.toLower = "desc".toList then .desc else .asc

/-- What a clause stands for: the destinations of its key, if there is a rule for it. -/
def fragments (render : Text → Direction → Text) (d : Dictionary) (x : Clause) : List Text :=
  match d.get? x.key with
  | none => []
  | some r => r.destinations.map fun y => render y (r.direction x.direction)

end Clause

/-! ### The word after the key -/

theorem isDesc_congr {a b : Text} (h : a.trim = b.trim) : isDesc a = isDesc b := by
  rw [isDesc, isDesc, h]

/-- Blanks behind a text do not change its first word by more than blanks. -/
theorem trim_takeWhile_append_of_blank {v : Text} (hv : Blank v) (t : Text) :
    trim ((t ++ v).takeWhile (· ≠ ' ')) = trim (t.takeWhile (· ≠ ' ')) := by
  rw [List.takeWhile_append]
  split_ifs with h
  · have hblank : Blank (v.takeWhile (· ≠ ' ')) := hv.of_isInfix (List.takeWhile_prefix _).isInfix
    have hall : t.takeWhile (· ≠ ' ') = t := List.IsPrefix.eq_of_length (List.takeWhile_prefix _) h
    rw [hall]
    exact trim_append_of_blank hblank t
  · rfl

theorem directionOf_append_of_blank {v : Text} (hv : Blank v) (t : Text) :
    directionOf (t ++ v) = directionOf t := by
  cases t with
  | nil =>
    cases v with
    | nil => rfl
    | cons c r =>
      have hr : Blank (r.takeWhile (· ≠ ' ')) := fun a ha =>
        hv a (List.mem_cons_of_mem c ((List.takeWhile_prefix _).subset ha))
      have hdesc : isDesc (r.takeWhile (· ≠ ' ')) = false := by
        rw [isDesc, trim_eq_nil_iff.2 hr]
        rfl
      simp only [List.nil_append, directionOf, hdesc, Bool.false_eq_true, if_false]
  | cons c r =>
    simp only [List.cons_append, directionOf, isDesc_congr (trim_takeWhile_append_of_blank hv r)]

/-- A key with a space after it, or with nothing, is read as it stands. -/
theorem ofCandidate_append {k t : Text} (hk : ' ' ∉ k) (ht : t = [] ∨ ∃ r, t = ' ' :: r) :
    ofCandidate (k ++ t) = ⟨k, directionOf t⟩ := by
  rcases ht with rfl | ⟨r, rfl⟩
  · rw [List.append_nil, ofCandidate_self hk, directionOf]
  · rw [ofCandidate_append_space hk, directionOf, wordDirection]

namespace Clause

variable (x : Clause)

theorem tail_eq : x.tail = [] ∨ ∃ r, x.tail = ' ' :: r := by
  rw [tail]
  cases x.modifier with
  | none => exact .inl rfl
  | some m => exact .inr ⟨_, rfl⟩

theorem directionOf_tail : directionOf x.tail = x.direction := by
  rw [tail, direction]
  cases x.modifier with
  | none => rfl
  | some m =>
    have hall := forall_ne_space m.noSpace
    have hword : (m.word ++ m.more.elim [] (' ' :: ·)).takeWhile (· ≠ ' ') = m.word := by
      rw [List.takeWhile_append_of_pos hall]
      cases m.more <;> simp
    simp only [Option.elim_some, Modifier.text, directionOf, hword, isDesc, beq_iff_eq]

/-- A trimmed clause is its key and what follows it, less some blanks. -/
theorem exists_trim_text : ∃ t v, x.text.trim = x.key ++ t ∧ (t = [] ∨ ∃ r, t = ' ' :: r) ∧
    t ++ v = x.tail ++ x.after ∧ Blank v := by
  obtain ⟨t, v, e, hend, hv⟩ := exists_firmEnd_append (x.tail ++ x.after)
  have hkey : Firm x.key := firm_of_not_hasBlank x.key_solid
  have hfirm : Firm (x.key ++ t) := by
    by_cases ht : t = []
    · rwa [ht, List.append_nil]
    · exact (firm_append x.key_ne_nil ht).2 ⟨hkey.1, hend⟩
  -- Trimming may take blanks off the modifier, even all of it; what is left begins with the space.
  have hstart : t = [] ∨ ∃ r, t = ' ' :: r := by
    rcases x.tail_eq with htail | ⟨r, htail⟩
    · have hblank : Blank (t ++ v) := by
        rw [← e, htail]
        exact x.blank_after
      exact .inl (hend.eq_nil_of_blank (blank_append.1 hblank).1)
    · cases t with
      | nil => exact .inl rfl
      | cons c t =>
        rw [htail, List.cons_append, List.cons_append] at e
        exact .inr ⟨t, by rw [(List.cons.inj e).1]⟩
  refine ⟨t, v, ?_, hstart, e.symm, hv⟩
  have htext : x.text = x.before ++ (x.key ++ t) ++ v := by
    simp only [text, List.append_assoc, e]
  rw [htext, trim_eq_of_blank_ends x.blank_before hfirm hv]

/-- A clause asks for its key in the direction of its word. -/
theorem ofCandidate_trim_text : ofCandidate x.text.trim = ⟨x.key, x.direction⟩ := by
  obtain ⟨t, v, htrim, ht, e, hv⟩ := x.exists_trim_text
  have hdirection : directionOf t = x.direction := by
    calc directionOf t = directionOf (t ++ v) := (directionOf_append_of_blank hv t).symm
      _ = directionOf (x.tail ++ x.after) := by rw [e]
      _ = directionOf x.tail := directionOf_append_of_blank x.blank_after _
      _ = x.direction := x.directionOf_tail
  rw [htrim, ofCandidate_append (space_not_mem x.key_solid) ht, hdirection]

theorem trim_text_ne_nil : x.text.trim ≠ [] := by
  obtain ⟨t, v, htrim, -⟩ := x.exists_trim_text
  rw [htrim]
  simp [x.key_ne_nil]

end Clause

/-! ### Directives of clauses -/

theorem strip_map_text (xs : List Clause) :
    strip (xs.map Clause.text) = xs.map fun x => x.text.trim := by
  rw [strip, List.map_map]
  refine List.filter_eq_self.2 fun y hy => ?_
  obtain ⟨x, -, rfl⟩ := List.mem_map.1 hy
  simpa using x.trim_text_ne_nil

/-- The candidates of a directive of clauses are the clauses. -/
theorem candidates_join_clauses {σ : Text} (hσ : σ ≠ []) (hb : Unbordered σ) (hfirm : Firm σ)
    {xs : List Clause} (huncut : ∀ x ∈ xs, ¬σ <:+: x.text) :
    candidates σ (join σ (xs.map Clause.text)) = xs.map fun x => x.text.trim := by
  by_cases hxs : xs = []
  · subst hxs
    exact candidates_of_blank (by simp [join, Blank])
  · rw [candidates_eq_strip hσ (.inl hfirm), split_join hσ hb (by simpa using hxs), strip_map_text]
    intro t ht
    obtain ⟨x, hx, rfl⟩ := List.mem_map.1 ht
    exact huncut x hx

variable {c : Config} {render : Text → Direction → Text}

/-- Of what a clause asks for, a built-in renderer writes every destination. -/
theorem Clause.fragments_eq (hbuilt : c.render.BuiltIn)
    (hr : ∀ x d, c.render x d = .ok (render x d)) (d : Dictionary) (x : Clause) :
    (d.admit? ⟨x.key, x.direction⟩).toList.flatMap (d.fragments render) = x.fragments render d := by
  rw [Clause.fragments]
  cases hget : d.get? x.key with
  | none => simp [Dictionary.admit?, Dictionary.sortable?, hget]
  | some r =>
    by_cases hempty : r.isEmpty
    · have hdest : r.destinations = [] := List.isEmpty_iff.1 hempty
      simp [Dictionary.admit?, Dictionary.sortable?, hget, hempty, hdest]
    · have hpicked := Dictionary.admit?_eq_some (q := ⟨x.key, x.direction⟩).2
        ⟨r, hget, Bool.eq_false_iff.2 hempty, rfl⟩
      rw [hpicked, Option.toList_some, List.flatMap_singleton,
        Dictionary.fragments_of_builtIn hbuilt hr, Dictionary.destinations_of_get? hget]

namespace Config

/-- A directive of clauses expands to the destinations of their keys, clause by clause and in stored
order, in the direction that the word of the clause and the rule of the key give; a key without a
rule contributes nothing. -/
theorem expand_join_clauses (hσ : c.sourceSeparator ≠ []) (hb : Unbordered c.sourceSeparator)
    (hsolid : c.sourceSeparator.hasBlank = false) (hp : c.parse = Request.standardParser)
    (hbuilt : c.render.BuiltIn) (hr : ∀ x d, c.render x d = .ok (render x d))
    (dict : Option Dictionary) {xs : List Clause}
    (huncut : ∀ x ∈ xs, ¬c.sourceSeparator <:+: x.text) :
    c.expand dict (join c.sourceSeparator (xs.map Clause.text)) =
      .ok (join c.targetSeparator (xs.flatMap (Clause.fragments render (dict.getD .empty)))) := by
  have hparse : ∀ x, c.parse x = .ok (ofCandidate x) := fun x => by rw [hp]; rfl
  have hcand := candidates_join_clauses hσ hb (firm_of_not_hasBlank hsolid) huncut
  have hrequests : (xs.map fun x => x.text.trim).map ofCandidate =
      xs.map fun x => ⟨x.key, x.direction⟩ := by
    rw [List.map_map]
    exact List.map_congr_left fun x _ => x.ofCandidate_trim_text
  rw [expand_eq_join hparse hr, selection, hcand, hrequests,
    List.filterMap_eq_flatMap_toList, List.flatMap_assoc, List.flatMap_map]
  simp only [Clause.fragments_eq hbuilt hr]

/-- Cuts at `|` and writes properties of `n`. -/
def piped : Config where
  sourceSeparator := ['|']
  renderer? := some (Qualifier.of " n ".toList).renderer

/-- The same with the standard renderer. -/
def pipedPlain : Config := { sourceSeparator := ['|'] }

def pipedFields : Dictionary :=
  .ofList [("age".toList, .of true ["born".toList]),
    ("uid".toList, .of false ["uid".toList, "id".toList])]

/-- Two clauses for keys with rules and one for a key without; the word of the second has a blank
of another kind at its end. -/
def pipedClauses : List Clause :=
  [⟨" \t".toList, "uid".toList, none, "\n".toList, by decide, by decide, by decide, by decide⟩,
    ⟨[], "age".toList, some ⟨"DeSC\u00a0".toList, some "x y".toList, by decide⟩, " ".toList,
      by decide, by decide, by decide, by decide⟩,
    ⟨[], "size".toList, some ⟨[], some "desc".toList, by decide⟩, [], by decide, by decide,
      by decide, by decide⟩]

theorem expand_join_clauses_piped :
    piped.sourceSeparator ≠ [] ∧ Unbordered piped.sourceSeparator ∧
    piped.sourceSeparator.hasBlank = false ∧ piped.parse = Request.standardParser ∧
    piped.render.BuiltIn ∧ (∀ x ∈ pipedClauses, ¬piped.sourceSeparator <:+: x.text) ∧
    piped.expand (some pipedFields) (join piped.sourceSeparator (pipedClauses.map Clause.text)) =
      .ok "n.uid ASC, n.id ASC, n.born ASC".toList ∧
    pipedPlain.render = Renderer.standard ∧
    pipedPlain.expand (some pipedFields)
        (join pipedPlain.sourceSeparator (pipedClauses.map Clause.text)) =
      .ok "uid ASC, id ASC, born ASC".toList := by
  have hσ : piped.sourceSeparator ≠ [] ∧ Unbordered piped.sourceSeparator ∧
      piped.sourceSeparator.hasBlank = false := by decide
  have hbuilt : piped.render.BuiltIn := .inr ⟨" n ".toList, rfl⟩
  have huncut : ∀ x ∈ pipedClauses, ¬piped.sourceSeparator <:+: x.text := by decide
  have hqualified := @expand_join_clauses piped
    (fun x d => Renderer.plainText ((Qualifier.of " n ".toList).qualify x) d)
    hσ.1 hσ.2.1 hσ.2.2 rfl hbuilt (fun _ _ => rfl) (some pipedFields) pipedClauses huncut
  have hplain := @expand_join_clauses pipedPlain Renderer.plainText
    hσ.1 hσ.2.1 hσ.2.2 rfl (.inl rfl) (fun _ _ => rfl) (some pipedFields) pipedClauses huncut
  exact ⟨hσ.1, hσ.2.1, hσ.2.2, rfl, hbuilt, huncut, hqualified.trans (by decide), rfl,
    hplain.trans (by decide)⟩

end Config
end SortClause
