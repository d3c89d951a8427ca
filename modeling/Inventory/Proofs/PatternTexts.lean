import Inventory.Proofs.Literals
import Inventory.Query.Text

/-!
The texts of patterns. Each slash of a pattern is written behind a backslash, whether or not the pattern has one there
already, so that a text can be read back exactly if the pattern protects none of its slashes itself.
-/

namespace Inventory.PatternTexts

open Text Query Listing Literals

variable {d : Char} {cs body rest : List Char} {p pattern : String} {ignoreCase : Bool}

/-- A pattern in which each backslash protects the character after it. -/
inductive Paired : List Char → Prop
  | nil : Paired []
  | plain {c : Char} {cs : List Char} (hb : c ≠ '\\') (h : Paired cs) : Paired (c :: cs)
  | escaped (c : Char) {cs : List Char} (h : Paired cs) : Paired ('\\' :: c :: cs)

/-- A pattern with a slash that it protects itself. -/
def ProtectsSlash (cs : List Char) : Prop := ∃ before after, Paired before ∧ cs = before ++ '\\' :: '/' :: after

/-- What stands before the first delimiter that no backslash protects, and what stands behind it. -/
def closing (d : Char) : List Char → Option (List Char × List Char)
  | [] => none
  | ['\\'] => none
  | '\\' :: c :: cs => (closing d cs).map fun r => ('\\' :: c :: r.1, r.2)
  | c :: cs => if c = d then some ([], cs) else (closing d cs).map fun r => (c :: r.1, r.2)

/-- What stands behind a literal in the text of a filter. -/
def ending (ignoreCase : Bool) : List Char := (if ignoreCase then "i)" else ")").toList

/-- Reading the literal of a filter stops at its last slash, with the pattern of the filter up to backslashes before
slashes. -/
def ReadsBack (p pattern : String) (ignoreCase : Bool) : Prop :=
  ∃ literal body, (Filter.regex p pattern ignoreCase).render.toList =
      "regexp(".toList ++ p.toList ++ ", /".toList ++ literal ∧
    closing '/' literal = some (body, ending ignoreCase) ∧ unslash body = unslash pattern.toList

section Pairs

/-- A pattern that does not end in a backslash has a character behind each. -/
theorem paired_of_getLast : ∀ {cs : List Char}, cs.getLast? ≠ some '\\' → Paired cs
  | [], _ => .nil
  | [c], h => .plain (fun hb => h (congrArg some hb)) .nil
  | c :: e :: cs, h => by
      rw [List.getLast?_cons_cons] at h
      by_cases hb : c = '\\'
      · subst hb
        refine .escaped e (paired_of_getLast ?_)
        cases cs with
        | nil => exact fun hn => by cases hn
        | cons _ _ => rwa [List.getLast?_cons_cons] at h
      · exact .plain hb (paired_of_getLast h)

theorem Paired.append {cs' : List Char} (h : Paired cs) (h' : Paired cs') : Paired (cs ++ cs') := by
  induction h with
  | nil => exact h'
  | plain hb _ ih => exact .plain hb ih
  | escaped c _ ih => exact .escaped c ih

theorem paired_escapeChar (c : Char) : Paired (escapeChar c) := by
  rcases slashes_escapeChar c with ⟨-, -, hb, he⟩ | ⟨-, he⟩ | ⟨-, -, he⟩
  · rw [he]
    exact .plain hb .nil
  · rw [he]
    exact .plain (by decide) .nil
  · rw [he]
    exact .escaped c .nil

theorem paired_startingWith (s : String) : Paired (startingWith s).toList := by
  rw [toList_startingWith]
  refine .plain (by decide) ?_
  induction s.toList with
  | nil => exact .nil
  | cons c cs ih =>
      rw [List.flatMap_cons]
      exact (paired_escapeChar c).append ih

end Pairs

section Closing

theorem closing_cons {c : Char} (h : c ≠ '\\') (cs : List Char) :
    closing d (c :: cs) = if c = d then some ([], cs) else (closing d cs).map fun r => (c :: r.1, r.2) := by
  rw [closing]
  · exact fun he => absurd he h
  · exact fun _ _ he => absurd he h

theorem ne_backslash {c : Char} (hlast : c = '\\' → cs = [] → False)
    (hnext : ∀ e es, c = '\\' → cs = e :: es → False) : c ≠ '\\' := by
  rintro rfl
  cases cs with
  | nil => exact hlast rfl rfl
  | cons e es => exact hnext e es rfl rfl

theorem body_of_closing (h : closing d cs = some (body, rest)) : Body d body ∧ cs = body ++ d :: rest := by
  induction cs using closing.induct d generalizing body with
  | case1 | case2 => cases h
  | case3 c cs ih =>
      obtain ⟨r, hr, he⟩ := Option.map_eq_some_iff.1 h
      cases he
      obtain ⟨hbody, rfl⟩ := ih hr
      exact ⟨.escaped c hbody, rfl⟩
  | case4 cs hlast hnext =>
      rw [closing_cons (ne_backslash hlast hnext), if_pos rfl] at h
      cases h
      exact ⟨.nil, rfl⟩
  | case5 c cs hlast hnext hne ih =>
      have hb := ne_backslash hlast hnext
      rw [closing_cons hb, if_neg hne] at h
      obtain ⟨r, hr, he⟩ := Option.map_eq_some_iff.1 h
      cases he
      obtain ⟨hbody, rfl⟩ := ih hr
      exact ⟨.plain hne hb hbody, rfl⟩

theorem closing_of_body (hd : d ≠ '\\') (h : Body d body) (rest : List Char) :
    closing d (body ++ d :: rest) = some (body, rest) := by
  induction h with
  | nil => rw [List.nil_append, closing_cons hd, if_pos rfl]
  | plain hne hb _ ih => rw [List.cons_append, closing_cons hb, if_neg hne, ih, Option.map_some]
  | escaped c _ ih => rw [List.cons_append, List.cons_append, closing, ih, Option.map_some]

end Closing

section Slashes

variable {c : Char}

theorem not_protectsSlash_nil : ¬ProtectsSlash [] := by
  rintro ⟨before, after, -, he⟩
  exact absurd he.symm (List.append_ne_nil_of_right_ne_nil before (List.cons_ne_nil _ _))

theorem protectsSlash_cons (hb : c ≠ '\\') : ProtectsSlash (c :: cs) ↔ ProtectsSlash cs := by
  constructor
  · rintro ⟨before, after, hp, he⟩
    cases hp with
    | nil => exact absurd (List.cons.inj he).1 hb
    | plain _ hp => exact ⟨_, after, hp, (List.cons.inj he).2⟩
    | escaped _ _ => exact absurd (List.cons.inj he).1 hb
  · rintro ⟨before, after, hp, rfl⟩
    exact ⟨c :: before, after, .plain hb hp, rfl⟩

theorem protectsSlash_escaped : ProtectsSlash ('\\' :: c :: cs) ↔ c = '/' ∨ ProtectsSlash cs := by
  constructor
  · rintro ⟨before, after, hp, he⟩
    cases hp with
    | nil => exact .inl (List.cons.inj (List.cons.inj he).2).1
    | plain hb _ => exact absurd (List.cons.inj he).1.symm hb
    | escaped _ hp => exact .inr ⟨_, after, hp, (List.cons.inj (List.cons.inj he).2).2⟩
  · rintro (rfl | ⟨before, after, hp, rfl⟩)
    · exact ⟨[], cs, .nil, rfl⟩
    · exact ⟨'\\' :: c :: before, after, .escaped c hp, rfl⟩

theorem body_cons (hd : c ≠ d) (hb : c ≠ '\\') : Body d (c :: cs) ↔ Body d cs := by
  refine ⟨fun h => ?_, .plain hd hb⟩
  cases h with
  | plain _ _ h => exact h
  | escaped _ _ => exact absurd rfl hb

theorem body_escaped : Body d ('\\' :: c :: cs) ↔ Body d cs := by
  refine ⟨fun h => ?_, .escaped c⟩
  cases h with
  | plain _ hb _ => exact absurd rfl hb
  | escaped _ h => exact h

theorem slashes_slash (cs : List Char) : slashes ('/' :: cs) = '\\' :: '/' :: slashes cs := rfl

theorem slashes_cons (h : c ≠ '/') (cs : List Char) : slashes (c :: cs) = c :: slashes cs := by
  rw [slashes, List.flatMap_cons, if_neg h]
  rfl

/-- A slash that a pattern protects is protected from its backslash once more, and ends the literal. -/
theorem body_slashes_iff (h : Paired cs) : Body '/' (slashes cs) ↔ ¬ProtectsSlash cs := by
  induction h with
  | nil => exact iff_of_true .nil not_protectsSlash_nil
  | @plain c cs hb _ ih =>
      rw [protectsSlash_cons hb, ← ih]
      by_cases hs : c = '/'
      · rw [hs, slashes_slash, body_escaped]
      · rw [slashes_cons hs, body_cons hs hb]
  | @escaped c cs _ ih =>
      rw [protectsSlash_escaped, not_or, ← ih, slashes_cons (by decide)]
      by_cases hs : c = '/'
      · rw [hs, slashes_slash, body_escaped]
        refine iff_of_false (fun h => ?_) fun h => h.1 rfl
        cases h with
        | plain hne _ _ => exact hne rfl
      · rw [slashes_cons hs, body_escaped]
        exact (and_iff_right hs).symm

theorem unslash_slashes_of_paired (h : Paired cs) (hs : ¬ProtectsSlash cs) : unslash (slashes cs) = unslash cs := by
  induction h with
  | nil => rfl
  | @plain c cs hb _ ih =>
      rw [protectsSlash_cons hb] at hs
      rw [unslash_cons hb, ← ih hs]
      by_cases hc : c = '/'
      · rw [hc, slashes_slash, unslash, if_pos rfl]
      · rw [slashes_cons hc, unslash_cons hb]
  | @escaped c cs _ ih =>
      rw [protectsSlash_escaped, not_or] at hs
      rw [slashes_cons (by decide), slashes_cons hs.1, unslash, unslash, if_neg hs.1, if_neg hs.1, ih hs.2]

/-- A literal is read back if its pattern can stand between slashes and loses just the backslashes before them. -/
theorem readsBack_iff_body : ReadsBack p pattern ignoreCase ↔
    Body '/' (slashes pattern.toList) ∧ unslash (slashes pattern.toList) = unslash pattern.toList := by
  have htext : (Filter.regex p pattern ignoreCase).render.toList = "regexp(".toList ++ p.toList ++ ", /".toList ++
      (slashes pattern.toList ++ '/' :: ending ignoreCase) := by
    have hchars : (Filter.regex p pattern ignoreCase).chars = "regexp(".toList ++ p.toList ++ ", ".toList ++
      ('/' :: (slashes pattern.toList ++ ['/'])) ++ ending ignoreCase := rfl
    rw [Filter.render, String.toList_ofList, hchars]
    simp
  constructor
  · rintro ⟨literal, body, ht, hc, hu⟩
    obtain rfl := List.append_cancel_left (htext.symm.trans ht)
    obtain ⟨hbody, he⟩ := body_of_closing hc
    rw [List.append_cancel_right he]
    exact ⟨hbody, hu⟩
  · rintro ⟨hbody, hu⟩
    exact ⟨_, _, htext, closing_of_body (by decide) hbody _, hu⟩

end Slashes

/-- A filter whose pattern has a character behind each backslash is read back exactly unless the pattern protects one of
its slashes itself. -/
theorem readsBack_iff (h : Paired pattern.toList) :
    ReadsBack p pattern ignoreCase ↔ ¬ProtectsSlash pattern.toList := by
  rw [readsBack_iff_body, body_slashes_iff h]
  exact and_iff_left_of_imp (unslash_slashes_of_paired h)

theorem readsBack_path : Paired "^/dev/\\d+".toList ∧ ReadsBack "equipment.id" "^/dev/\\d+" true := by
  have hp : Paired "^/dev/\\d+".toList := paired_of_getLast (by decide)
  refine ⟨hp, (readsBack_iff hp).2 ?_⟩
  simp [protectsSlash_cons, protectsSlash_escaped, not_protectsSlash_nil]

/-- A pattern for a slash, as it is written between slashes. -/
theorem not_readsBack_protected : Paired "\\/".toList ∧ ¬ReadsBack "equipment.id" "\\/" true := by
  have hp : Paired "\\/".toList := .escaped '/' .nil
  refine ⟨hp, fun h => ?_⟩
  exact (body_slashes_iff hp).1 (readsBack_iff_body.1 h).1 ⟨[], [], .nil, rfl⟩

theorem readsBack_startingWith (p s : String) : ReadsBack p (startingWith s) true := by
  have hpaired := paired_startingWith s
  have hbody := body_slashes s
  exact readsBack_iff_body.2 ⟨hbody, unslash_slashes_of_paired hpaired ((body_slashes_iff hpaired).1 hbody)⟩

end Inventory.PatternTexts
