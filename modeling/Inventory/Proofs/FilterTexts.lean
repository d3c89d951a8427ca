import Inventory.Graph.Evaluation
import Inventory.Proofs.Literals
import Inventory.Proofs.NumberTexts
import Inventory.Proofs.SafeNames
import Inventory.Query.Text

/-!
The texts of filters: what is compiled from searches and scopes can be told from its text.
-/

namespace Inventory.FilterTexts

open Text Query Listing Inventory.Graph Literals SafeNames NumberTexts

variable {f g : Filter} {fs : List Filter} {p p' s s' : String} {v v' : Json} {r r' cs cs' : List Char} {x : Binary64}
  {t : EquipmentType}

section Equations

theorem literals_eq (js : List Json) : Query.literals js = Quoted.joined ", ".toList (js.map literal) := by
  induction js with
  | nil => rfl
  | cons j js ih =>
      cases js with
      | nil => rfl
      | cons k ks =>
          rw [Query.literals, ih]
          · rfl
          · exact fun h => by cases h

theorem literal_strings (ss : List String) :
    literal (.ofStrings ss) = ['['] ++ (Quoted.joined ", ".toList (ss.map Quoted.quoted) ++ [']']) := by
  rw [Json.ofStrings, literal, literals_eq, List.map_map]
  rfl

theorem comparison_eq (operator p : String) (v : Json) : comparison operator p v =
    operator.toList ++ (['('] ++ (p.toList ++ ", ".toList)) ++ (literal v ++ [')']) := by
  rw [comparison]
  simp only [List.append_assoc, List.cons_append, List.nil_append]

theorem chars_startingWith (p s : String) : (Filter.regex p (startingWith s) true).chars =
    ("regexp(".toList ++ (p.toList ++ ", ".toList)) ++ (Quoted.slashed (startingWith s) ++ "i)".toList) := by
  have h : (Filter.regex p (startingWith s) true).chars =
    "regexp(".toList ++ p.toList ++ ", ".toList ++ Quoted.slashed (startingWith s) ++ "i)".toList := rfl
  rw [h]
  simp only [List.append_assoc]

theorem charsJoined_eq (separator : List Char) (fs : List Filter) :
    Filter.charsJoined separator fs = Quoted.joined separator (fs.map Filter.chars) := by
  induction fs with
  | nil => rfl
  | cons f fs ih =>
      cases fs with
      | nil => rfl
      | cons g gs => exact congrArg (f.chars ++ separator ++ ·) ih

theorem chars_and (fs : List Filter) :
    (Filter.and fs).chars = ['('] ++ (Quoted.joined " AND ".toList (fs.map Filter.chars) ++ [')']) := by
  rw [← charsJoined_eq]
  rfl

theorem chars_or (fs : List Filter) :
    (Filter.or fs).chars = ['('] ++ (Quoted.joined " OR ".toList (fs.map Filter.chars) ++ [')']) := by
  rw [← charsJoined_eq]
  rfl

end Equations

/-- A value that is searched for. -/
inductive Value : Json → Prop
  | text (s : String) : Value (.str s)
  | number (n : Number) : Value (.num n)
  | texts (ss : List String) : Value (.ofStrings ss)

/-- Filters as they are compiled from searches and scopes: several in each conjunction and disjunction. -/
inductive Legible : Filter → Prop
  | eq {p : String} {v : Json} (hp : Safe p) (hv : Value v) : Legible (.eq p v)
  | ge {p : String} {v : Json} (hp : Safe p) (hv : Value v) : Legible (.ge p v)
  | startingWith {p : String} (hp : Safe p) (s : String) : Legible (.regex p (startingWith s) true)
  | and {f g : Filter} {fs : List Filter} (h : ∀ x ∈ f :: g :: fs, Legible x) : Legible (.and (f :: g :: fs))
  | or {f g : Filter} {fs : List Filter} (h : ∀ x ∈ f :: g :: fs, Legible x) : Legible (.or (f :: g :: fs))

/-- A floating-point number that a filter compares with. -/
inductive HasFloat (x : Binary64) : Filter → Prop
  | eq (p : String) : HasFloat x (.eq p (.num (.float x)))
  | ge (p : String) : HasFloat x (.ge p (.num (.float x)))
  | and {f : Filter} {fs : List Filter} (hf : f ∈ fs) (h : HasFloat x f) : HasFloat x (.and fs)
  | or {f : Filter} {fs : List Filter} (hf : f ∈ fs) (h : HasFloat x f) : HasFloat x (.or fs)

def parts : Filter → List Filter
  | .and fs | .or fs => fs
  | _ => []

theorem HasFloat.of_part (hf : f ∈ parts g) (h : HasFloat x f) : HasFloat x g := by
  cases g with
  | and fs => exact .and hf h
  | or fs => exact .or hf h
  | eq | ge | regex | uid | has | not => cases hf

/-- Floating-point numbers of two filters have different texts if they differ. -/
def FloatsApart (f g : Filter) : Prop :=
  ∀ x y, HasFloat x f → HasFloat y g → x.render .document = y.render .document → x = y

theorem FloatsApart.parts {f' g' : Filter} (h : FloatsApart f g) (hf : f' ∈ parts f) (hg : g' ∈ parts g) :
    FloatsApart f' g' :=
  fun x y hx hy => h x y (hx.of_part hf) (hy.of_part hg)

section Parts

theorem unique_of_stop {stop : Char} (h : stop ∉ cs) (h' : stop ∉ cs') (he : cs ++ stop :: r = cs' ++ stop :: r') :
    cs = cs' ∧ r = r' := by
  induction cs generalizing cs' with
  | nil =>
      cases cs' with
      | nil => exact ⟨rfl, (List.cons.inj he).2⟩
      | cons c cs' => exact absurd ((List.cons.inj he).1 ▸ List.mem_cons_self) h'
  | cons c cs ih =>
      cases cs' with
      | nil => exact absurd ((List.cons.inj he).1 ▸ List.mem_cons_self) h
      | cons c' cs' =>
          obtain ⟨rfl, htail⟩ := List.cons.inj he
          rw [List.mem_cons, not_or] at h h'
          obtain ⟨rfl, hr⟩ := ih h.2 h'.2 htail
          exact ⟨rfl, hr⟩

theorem unique_literal {d : Char} (hd : d ≠ '\\') (h : Body d cs) (h' : Body d cs')
    (he : d :: (cs ++ [d]) ++ r = d :: (cs' ++ [d]) ++ r') : cs = cs' ∧ r = r' := by
  rw [List.cons_append, List.cons_append, List.append_assoc, List.append_assoc] at he
  exact h.unique hd h' (List.cons.inj he).2

theorem unique_quoted (he : Quoted.quoted s ++ r = Quoted.quoted s' ++ r') : s = s' ∧ r = r' := by
  obtain ⟨hs, hr⟩ := unique_literal (by decide) (body_encode s.toList) (body_encode s'.toList) he
  have htext := congrArg unescape hs
  rw [unescape_encode, unescape_encode] at htext
  exact ⟨String.toList_inj.1 htext, hr⟩

theorem unique_slashed (he : Quoted.slashed (startingWith s) ++ r = Quoted.slashed (startingWith s') ++ r') :
    startingWith s = startingWith s' ∧ r = r' := by
  obtain ⟨hs, hr⟩ := unique_literal (by decide) (body_slashes s) (body_slashes s') he
  have hpattern := congrArg unslash hs
  rw [unslash_slashes, unslash_slashes] at hpattern
  exact ⟨String.toList_inj.1 hpattern, hr⟩

theorem joined_cons (separator x : List Char) (xs : List (List Char)) : Quoted.joined separator (x :: xs) =
    x ++ if xs.isEmpty then [] else separator ++ Quoted.joined separator xs := by
  cases xs with
  | nil => simp [Quoted.joined]
  | cons y ys => simp [Quoted.joined]

/-- Items with a separator between them are told apart if each of them is, and none begins as what comes after all. -/
theorem unique_joined {α : Type} {write : α → List Char} {c stop : Char} {separator : List Char} (hc : c ≠ stop)
    {as bs : List α} (hstart : ∀ a ∈ as ++ bs, ∃ d ds, write a = d :: ds ∧ d ≠ stop)
    (hitem : ∀ a ∈ as, ∀ b ∈ bs, ∀ r r', write a ++ r = write b ++ r' → a = b ∧ r = r')
    (he : Quoted.joined (c :: separator) (as.map write) ++ stop :: r =
      Quoted.joined (c :: separator) (bs.map write) ++ stop :: r') : as = bs ∧ r = r' := by
  induction as generalizing bs with
  | nil =>
      cases bs with
      | nil => exact ⟨rfl, (List.cons.inj he).2⟩
      | cons b bs =>
          obtain ⟨d, ds, hb, hd⟩ := hstart b (by simp)
          rw [List.map_cons, joined_cons, hb] at he
          exact absurd (List.cons.inj he).1.symm hd
  | cons a as ih =>
      cases bs with
      | nil =>
          obtain ⟨d, ds, ha, hd⟩ := hstart a (by simp)
          rw [List.map_cons, joined_cons, ha] at he
          exact absurd (List.cons.inj he).1 hd
      | cons b bs =>
          rw [List.map_cons, List.map_cons, joined_cons, joined_cons, List.append_assoc, List.append_assoc] at he
          obtain ⟨rfl, hrest⟩ := hitem a (by simp) b (by simp) _ _ he
          -- either list ends here, and so does the other, or a separator comes next in both
          cases as with
          | nil =>
              cases bs with
              | nil => exact ⟨rfl, (List.cons.inj hrest).2⟩
              | cons b bs => exact absurd (List.cons.inj hrest).1.symm hc
          | cons a' as =>
              cases bs with
              | nil => exact absurd (List.cons.inj hrest).1 hc
              | cons b bs =>
                  have htail : (c :: separator) ++
                      (Quoted.joined (c :: separator) ((a' :: as).map write) ++ stop :: r) =
                        (c :: separator) ++ (Quoted.joined (c :: separator) ((b :: bs).map write) ++ stop :: r') := by
                    rw [← List.append_assoc, ← List.append_assoc]
                    exact hrest
                  have hstart' : ∀ x ∈ (a' :: as) ++ (b :: bs), ∃ d ds, write x = d :: ds ∧ d ≠ stop := by
                    intro x hx
                    refine hstart x ?_
                    rw [List.mem_append] at hx ⊢
                    exact hx.imp (List.mem_cons_of_mem a) (List.mem_cons_of_mem a)
                  obtain ⟨hl, hr⟩ := ih hstart' (fun x hx y hy => hitem x (List.mem_cons_of_mem a hx) y
                    (List.mem_cons_of_mem a hy)) (List.append_cancel_left htail)
                  exact ⟨congrArg _ hl, hr⟩

theorem unique_strings {ss ss' : List String} (he : literal (.ofStrings ss) ++ r = literal (.ofStrings ss') ++ r') :
    ss = ss' ∧ r = r' := by
  rw [literal_strings, literal_strings] at he
  simp only [List.append_assoc, List.cons_append, List.nil_append] at he
  have hitems : Quoted.joined [',', ' '] (ss.map Quoted.quoted) ++ ']' :: r =
      Quoted.joined [',', ' '] (ss'.map Quoted.quoted) ++ ']' :: r' := (List.cons.inj he).2
  exact unique_joined (by decide) (fun s _ => ⟨'"', _, rfl, by decide⟩) (fun _ _ _ _ _ _ => unique_quoted) hitems

theorem not_mem_of_numerals {c : Char} (h : Numerals cs) (hc : isNumeral c = false) : c ∉ cs := by
  intro hin
  rw [h c hin] at hc
  cases hc

theorem number_ne {n : Number} {c : Char} (hc : isNumeral c = false) (hstop : c ≠ ')') :
    literal (.num n) ++ ')' :: r ≠ c :: cs := by
  intro he
  cases hn : literal (.num n) with
  | nil =>
      rw [hn] at he
      exact hstop (List.cons.inj he).1.symm
  | cons d ds =>
      rw [hn] at he
      have hd : d = c := (List.cons.inj he).1
      have hin : c ∈ literal (.num n) := hn ▸ hd ▸ List.mem_cons_self
      exact not_mem_of_numerals (numerals_number n) hc hin

theorem unique_value (hv : Value v) (hv' : Value v')
    (hfloats : ∀ x y, v = .num (.float x) → v' = .num (.float y) → x.render .document = y.render .document → x = y)
    (he : literal v ++ ')' :: r = literal v' ++ ')' :: r') : v = v' ∧ r = r' := by
  cases hv with
  | text s =>
      cases hv' with
      | text s' =>
          obtain ⟨rfl, hr⟩ := unique_quoted he
          exact ⟨rfl, (List.cons.inj hr).2⟩
      | number n => exact absurd he.symm (number_ne (by decide) (by decide))
      | texts ss => exact absurd (List.cons.inj he).1 (by decide)
  | number n =>
      cases hv' with
      | text s => exact absurd he (number_ne (by decide) (by decide))
      | number n' =>
          obtain ⟨hn, hr⟩ := unique_of_stop (not_mem_of_numerals (numerals_number n) (by decide))
            (not_mem_of_numerals (numerals_number n') (by decide)) he
          have hsame : n = n' := number_injective (fun x y hx hy => hfloats x y (congrArg _ hx) (congrArg _ hy))
            (String.toList_inj.1 hn)
          exact ⟨congrArg _ hsame, hr⟩
      | texts ss => exact absurd he (number_ne (by decide) (by decide))
  | texts ss =>
      cases hv' with
      | text s => exact absurd (List.cons.inj he).1 (by decide)
      | number n => exact absurd he.symm (number_ne (by decide) (by decide))
      | texts ss' =>
          obtain ⟨rfl, hr⟩ := unique_strings he
          exact ⟨rfl, (List.cons.inj hr).2⟩

theorem unique_predicate (hp : Safe p) (hp' : Safe p') (he : p.toList ++ ',' :: r = p'.toList ++ ',' :: r') :
    p = p' ∧ r = r' := by
  have hcomma : ∀ p, Safe p → ',' ∉ p.toList := fun p hp hin => absurd (hp ',' hin) (by decide)
  obtain ⟨ht, hr⟩ := unique_of_stop (hcomma p hp) (hcomma p' hp') he
  exact ⟨String.toList_inj.1 ht, hr⟩

theorem unique_comparison {operator : String} (hp : Safe p) (hp' : Safe p') (hv : Value v) (hv' : Value v')
    (hfloats : ∀ x y, v = .num (.float x) → v' = .num (.float y) → x.render .document = y.render .document → x = y)
    (he : comparison operator p v ++ r = comparison operator p' v' ++ r') : p = p' ∧ v = v' ∧ r = r' := by
  rw [comparison_eq, comparison_eq] at he
  simp only [List.append_assoc, List.append_cancel_left_eq] at he
  obtain ⟨rfl, hrest⟩ := unique_predicate hp hp' he
  obtain ⟨rfl, hr⟩ := unique_value hv hv' hfloats (List.cons.inj hrest).2
  exact ⟨rfl, rfl, hr⟩

theorem unique_startingWith (hp : Safe p) (hp' : Safe p') (he : (Filter.regex p (startingWith s) true).chars ++ r =
    (Filter.regex p' (startingWith s') true).chars ++ r') : p = p' ∧ startingWith s = startingWith s' ∧ r = r' := by
  rw [chars_startingWith, chars_startingWith] at he
  simp only [List.append_assoc, List.append_cancel_left_eq] at he
  obtain ⟨rfl, hrest⟩ := unique_predicate hp hp' he
  obtain ⟨hs, hr⟩ := unique_slashed (List.cons.inj hrest).2
  exact ⟨rfl, hs, List.append_cancel_left hr⟩

end Parts

section Reading

/-- The first letter of a filter's text. -/
def initial : Filter → Char
  | .eq _ _ => 'e'
  | .ge _ _ => 'g'
  | .regex _ _ _ => 'r'
  | .uid _ => 'u'
  | .has _ => 'h'
  | .and _ | .or _ => '('
  | .not _ => 'N'

theorem Legible.starts (hf : Legible f) : ∃ cs, f.chars = initial f :: cs ∧ initial f ≠ ')' := by
  cases hf with
  | eq | ge | startingWith | and | or => exact ⟨_, rfl, by simp [initial]⟩

theorem Legible.initial_eq (hf : Legible f) (hg : Legible g) (he : f.chars ++ r = g.chars ++ r') :
    initial f = initial g := by
  obtain ⟨cs, hcs, -⟩ := hf.starts
  obtain ⟨ds, hds, -⟩ := hg.starts
  rw [hcs, hds] at he
  exact (List.cons.inj he).1

/-- Whatever follows it, the text of a filter is read as that filter. -/
def Unique (f g : Filter) : Prop := ∀ r r', f.chars ++ r = g.chars ++ r' → f = g ∧ r = r'

theorem unique_parts {gs : List Filter} {separator : List Char} (hfs : ∀ x ∈ fs, Legible x) (hgs : ∀ x ∈ gs, Legible x)
    (h : ∀ x ∈ fs, ∀ y ∈ gs, Unique x y)
    (he : ['('] ++ (Quoted.joined (' ' :: separator) (fs.map Filter.chars) ++ [')']) ++ r =
      ['('] ++ (Quoted.joined (' ' :: separator) (gs.map Filter.chars) ++ [')']) ++ r') : fs = gs ∧ r = r' := by
  simp only [List.append_assoc, List.cons_append, List.nil_append] at he
  refine unique_joined (by decide) (fun x hx => ?_) h (List.cons.inj he).2
  have hx : Legible x := (List.mem_append.1 hx).elim (hfs x) (hgs x)
  obtain ⟨cs, hcs, hne⟩ := hx.starts
  exact ⟨initial x, cs, hcs, hne⟩

/-- The second part comes after another word in a conjunction than in a disjunction. -/
theorem and_ne_or {f' g' : Filter} {fs' : List Filter} (h : Unique f f') :
    (Filter.and (f :: g :: fs)).chars ++ r ≠ (Filter.or (f' :: g' :: fs')).chars ++ r' := by
  intro he
  rw [chars_and, chars_or] at he
  simp only [List.map_cons] at he
  rw [joined_cons " AND ".toList f.chars, joined_cons " OR ".toList f'.chars] at he
  simp only [List.append_assoc, List.cons_append, List.nil_append] at he
  obtain ⟨rfl, hrest⟩ := h _ _ (List.cons.inj he).2
  exact absurd (List.cons.inj (List.cons.inj hrest).2).1 (by decide)

theorem Unique.symm (h : Unique f g) : Unique g f := by
  intro r r' he
  obtain ⟨hfg, hr⟩ := h r' r he.symm
  exact ⟨hfg.symm, hr.symm⟩

theorem Legible.unique (hf : Legible f) : ∀ {g}, Legible g → FloatsApart f g → Unique f g := by
  induction hf with
  | @eq p v hp hv =>
      intro g hg hfloats r r' he
      have hinitial := (Legible.eq hp hv).initial_eq hg he
      cases hg with
      | @eq p' v' hp' hv' =>
          obtain ⟨rfl, rfl, hr⟩ := unique_comparison hp hp' hv hv'
            (fun x y hx hy => hfloats x y (hx ▸ .eq p) (hy ▸ .eq p')) he
          exact ⟨rfl, hr⟩
      | ge | startingWith | and | or => simp [initial] at hinitial
  | @ge p v hp hv =>
      intro g hg hfloats r r' he
      have hinitial := (Legible.ge hp hv).initial_eq hg he
      cases hg with
      | @ge p' v' hp' hv' =>
          obtain ⟨rfl, rfl, hr⟩ := unique_comparison hp hp' hv hv'
            (fun x y hx hy => hfloats x y (hx ▸ .ge p) (hy ▸ .ge p')) he
          exact ⟨rfl, hr⟩
      | eq | startingWith | and | or => simp [initial] at hinitial
  | startingWith hp s =>
      intro g hg hfloats r r' he
      have hinitial := (Legible.startingWith hp s).initial_eq hg he
      cases hg with
      | startingWith hp' s' =>
          obtain ⟨rfl, hs, hr⟩ := unique_startingWith hp hp' he
          rw [hs]
          exact ⟨rfl, hr⟩
      | eq | ge | and | or => simp [initial] at hinitial
  | and h ih =>
      intro g hg hfloats r r' he
      have hinitial := (Legible.and h).initial_eq hg he
      cases hg with
      | and h' =>
          have hparts := fun x hx y hy => ih x hx (h' y hy) (hfloats.parts hx hy)
          rw [chars_and, chars_and] at he
          obtain ⟨hfs, hr⟩ := unique_parts h h' hparts he
          exact ⟨congrArg _ hfs, hr⟩
      | or h' =>
          have hfirst := ih _ List.mem_cons_self (h' _ List.mem_cons_self)
            (hfloats.parts List.mem_cons_self List.mem_cons_self)
          exact absurd he (and_ne_or hfirst)
      | eq | ge | startingWith => simp [initial] at hinitial
  | or h ih =>
      intro g hg hfloats r r' he
      have hinitial := (Legible.or h).initial_eq hg he
      cases hg with
      | or h' =>
          have hparts := fun x hx y hy => ih x hx (h' y hy) (hfloats.parts hx hy)
          rw [chars_or, chars_or] at he
          obtain ⟨hfs, hr⟩ := unique_parts h h' hparts he
          exact ⟨congrArg _ hfs, hr⟩
      | and h' =>
          have hfirst := ih _ List.mem_cons_self (h' _ List.mem_cons_self)
            (hfloats.parts List.mem_cons_self List.mem_cons_self)
          exact absurd he.symm (and_ne_or hfirst.symm)
      | eq | ge | startingWith => simp [initial] at hinitial

end Reading

section Searches

variable {a : Attribute} {path : Listing.Path} {q : Search}

/-- The alternative that a value of a search is compiled to, if it is of the attribute's type. -/
def alternative? (path : Listing.Path) (t : EquipmentType) (a : Attribute) (c : Comparison) (raw : Json) :
    Option Filter :=
  (FieldValue.convert a.dataType raw).toOption.map (alternative path (predicateOf t a) a.dataType c)

/-- The filter that a search is compiled to. -/
def clause? (path : Listing.Path) (t : EquipmentType) (q : Search) : Option Filter :=
  (searched? path t q.key).bind fun a => searchFilter? path t a q

theorem attributeFilter?_eq (path : Listing.Path) (t : EquipmentType) (s : SearchFilter) :
    attributeFilter? path t s = Filter.allOf (s.ordered.filterMap (clause? path t)) := rfl

theorem attribute_of_searched {key : String} (h : searched? path t key = some a) : t.attribute? key = some a :=
  (Option.filter_eq_some_iff.1 h).1

theorem value_toJson (v : FieldValue) : Value v.toJson := by
  cases v with
  | string s => exact .text s
  | int i => exact .number (.int i)
  | float x => exact .number (.float x)

theorem legible_alternative (hp : Safe p) (d : DataType) (c : Comparison) (v : FieldValue) :
    Legible (alternative path p d c v) := by
  cases d with
  | string =>
      cases c with
      | eq => exact .eq hp (value_toJson v)
      | regex => exact .startingWith hp v.display
  | int | float =>
      cases path with
      | listed => exact .eq hp (value_toJson v)
      | related => exact .ge hp (value_toJson v)

theorem legible_allOf (h : ∀ x ∈ fs, Legible x) (hf : Filter.allOf fs = some f) : Legible f := by
  match fs with
  | [] => cases hf
  | [_] =>
      cases hf
      exact h f List.mem_cons_self
  | _ :: _ :: _ =>
      cases hf
      exact .and h

theorem legible_anyOf (h : ∀ x ∈ fs, Legible x) (hf : Filter.anyOf fs = some f) : Legible f := by
  match fs with
  | [] => cases hf
  | [_] =>
      cases hf
      exact h f List.mem_cons_self
  | _ :: _ :: _ =>
      cases hf
      exact .or h

theorem legible_clause (ht : Named t) (h : clause? path t q = some f) : Legible f := by
  obtain ⟨a, ha, hany⟩ := Option.bind_eq_some_iff.1 h
  have hp : Safe (predicateOf t a) := ht.predicateOf (List.mem_of_find?_eq_some (attribute_of_searched ha))
  refine legible_anyOf (fun x hx => ?_) hany
  obtain ⟨raw, -, hraw⟩ := List.mem_filterMap.1 hx
  obtain ⟨v, -, rfl⟩ := Option.map_eq_some_iff.1 hraw
  exact legible_alternative hp a.dataType q.comparison v

theorem legible_attributeFilter (ht : Named t) {s : SearchFilter} (h : attributeFilter? path t s = some f) :
    Legible f := by
  rw [attributeFilter?_eq] at h
  refine legible_allOf (fun x hx => ?_) h
  obtain ⟨q, -, hq⟩ := List.mem_filterMap.1 hx
  exact legible_clause ht hq

theorem legible_relationshipFilter (ht : Named t) (s : SearchFilter) : Legible (relationshipFilter t s) := by
  have htype : Legible (.eq Vocabulary.equipmentType (.str t.typeName)) := .eq (by decide) (.text _)
  unfold relationshipFilter
  split
  · rename_i attributes h
    exact .and (List.forall_mem_cons.2 ⟨htype, List.forall_mem_singleton.2 (legible_attributeFilter ht h)⟩)
  · exact htype

end Searches

/-- What searches and scopes are compiled to, where the names of types are safe. -/
inductive Compiled : Filter → Prop
  | listed {t : EquipmentType} {u : Unit} {f : Filter} (ht : Admission.checkNames t = .ok u) (s : SearchFilter)
      (h : instanceFilter? t s = some f) : Compiled f
  | related {t : EquipmentType} {u : Unit} (ht : Admission.checkNames t = .ok u) (s : SearchFilter) :
      Compiled (relationshipFilter t s)
  | scopes (ss : List String) : Compiled (scopeFilter ss)

theorem Compiled.legible (h : Compiled f) : Legible f := by
  cases h with
  | listed ht s h => exact legible_attributeFilter (named_of_checkNames ht) h
  | related ht s => exact legible_relationshipFilter (named_of_checkNames ht) s
  | scopes ss => exact .eq (by decide) (.texts ss)

/-- The text of a compiled filter determines it, as long as different floating-point numbers in it have different
texts: a store that reads some filter from the text selects the nodes that pass the one it was written from. -/
theorem eq_of_render_eq (hf : Compiled f) (hg : Compiled g) (hfloats : FloatsApart f g) (h : f.render = g.render) :
    f = g ∧ ∀ (graph : Graph) (vars : Vars) (u : Uid), holds graph vars u f = holds graph vars u g := by
  have hchars : f.chars ++ [] = g.chars ++ [] := congrArg (· ++ []) (String.ofList_injective h)
  obtain ⟨rfl, -⟩ := hf.legible.unique hg.legible hfloats [] [] hchars
  exact ⟨rfl, fun _ _ _ => rfl⟩

/-- A type that is searched by a number. -/
def sensor : EquipmentType :=
  ((EquipmentType.new "sensor" "0x1").withAttribute (.identifier "host name" "id")).withAttribute
    (.new "load" .float "load")

def half : Binary64 := ⟨false, 1 <<< 52, 1021, by decide, by decide, by decide⟩

theorem instanceFilter?_half {raw : Json} (h : (FieldValue.convert .float raw).toOption = some (.float half)) :
    instanceFilter? sensor ⟨[.eq "load" raw]⟩ =
      some (.eq (Vocabulary.attributePredicate "sensor" "load") (.num (.float half))) := by
  have hload : searched? .listed sensor "load" = some (.new "load" .float "load") := by decide +kernel
  have hpredicate : predicateOf sensor (.new "load" .float "load") =
      Vocabulary.attributePredicate "sensor" "load" := rfl
  have htest : clause? .listed sensor (.eq "load" raw) =
      some (.eq (Vocabulary.attributePredicate "sensor" "load") (.num (.float half))) := by
    rw [clause?, Search.eq, hload, Option.bind_some, searchFilter?, hpredicate]
    change Filter.anyOf ([raw].filterMap fun raw => (FieldValue.convert .float raw).toOption.map _) = _
    rw [List.filterMap_cons, h]
    rfl
  rw [instanceFilter?, attributeFilter?_eq, SearchFilter.ordered, List.mergeSort_singleton, List.filterMap_cons, htest]
  rfl

/-- A number and a text that stands for it are searched for alike. -/
theorem eq_of_render_half : ∃ f g, instanceFilter? sensor ⟨[.eq "load" (.num (.float half))]⟩ = some f ∧
    instanceFilter? sensor ⟨[.eq "load" (.str "0.50")]⟩ = some g ∧ f.render = g.render ∧
    f = g ∧ ∀ (graph : Graph) (vars : Vars) (u : Uid), holds graph vars u f = holds graph vars u g := by
  have hchecked : Admission.checkNames sensor = .ok () := by decide +kernel
  have hnumber : (FieldValue.convert .float (.num (.float half))).toOption = some (.float half) := by decide +kernel
  have htext : (FieldValue.convert .float (.str "0.50")).toOption = some (.float half) := by decide +kernel
  have hfloats : FloatsApart (.eq (Vocabulary.attributePredicate "sensor" "load") (.num (.float half)))
      (.eq (Vocabulary.attributePredicate "sensor" "load") (.num (.float half))) := by
    rintro x y ⟨⟩ ⟨⟩ -
    rfl
  have hf := instanceFilter?_half hnumber
  have hg := instanceFilter?_half htext
  exact ⟨_, _, hf, hg, rfl, eq_of_render_eq (.listed hchecked _ hf) (.listed hchecked _ hg) hfloats rfl⟩

end Inventory.FilterTexts
