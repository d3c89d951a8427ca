import Inventory.Listing.Filter
import Inventory.Text.Quoted

/-!
Texts with literals between quotes or slashes, in which a backslash protects the character after it: how they are
scanned, and what their literals stand for.
-/

namespace Inventory.Literals

open Text Quoted Listing

/-- What a text is made of: characters by themselves, and literals between two of a delimiter. -/
inductive Piece
  | plain (c : Char)
  | literal (delimiter : Char) (body : List Char)
deriving DecidableEq

/-- Where a reader is: outside of literals, inside of one with so much of its body read, or there and behind a
backslash. -/
inductive Place
  | outside
  | inside (delimiter : Char) (body : List Char)
  | escaped (delimiter : Char) (body : List Char)

def isDelimiter (c : Char) : Bool := c == '"' || c == '/'

/-- The pieces of a text from a place on, or nothing if a literal is still open where it ends. -/
def scan : Place → List Char → Option (List Piece)
  | .outside, [] => some []
  | .inside _ _, [] => none
  | .escaped _ _, [] => none
  | .outside, c :: cs => if isDelimiter c then scan (.inside c []) cs else (scan .outside cs).map (.plain c :: ·)
  | .inside d body, c :: cs =>
    if c = '\\' then scan (.escaped d body) cs
    else if c = d then (scan .outside cs).map (.literal d body :: ·)
    else scan (.inside d (body ++ [c])) cs
  | .escaped d body, c :: cs => scan (.inside d (body ++ ['\\', c])) cs

/-- The characters outside of the literals. -/
def outside (ps : List Piece) : List Char := ps.filterMap fun
  | .plain c => some c
  | .literal _ _ => none

/-- The literals, each with its delimiter. -/
def literals (ps : List Piece) : List (Char × List Char) := ps.filterMap fun
  | .plain _ => none
  | .literal d body => some (d, body)

/-- What a literal stands for: a text between quotes, and a pattern between slashes. -/
inductive Word
  | text (s : String)
  | pattern (s : String)
deriving DecidableEq

def unescapeChar : Char → Char
  | 'n' => '\n'
  | 'r' => '\r'
  | 't' => '\t'
  | c => c

/-- The text that a body between quotes stands for. -/
def unescape : List Char → List Char
  | [] => []
  | ['\\'] => ['\\']
  | '\\' :: c :: cs => unescapeChar c :: unescape cs
  | c :: cs => c :: unescape cs

/-- The pattern that a body between slashes stands for: only slashes lose their backslash. -/
def unslash : List Char → List Char
  | [] => []
  | ['\\'] => ['\\']
  | '\\' :: c :: cs => if c = '/' then c :: unslash cs else '\\' :: c :: unslash cs
  | c :: cs => c :: unslash cs

def decode (d : Char) (body : List Char) : Word :=
  if d = '"' then .text (String.ofList (unescape body)) else .pattern (String.ofList (unslash body))

/-- What the literals of a text stand for. -/
def words (ps : List Piece) : List Word := (literals ps).map fun l => decode l.1 l.2

section Bodies

variable {d : Char} {cs cs' bs bs' rest rest' : List Char}

/-- What can stand between two of a delimiter. -/
inductive Body (d : Char) : List Char → Prop
  | nil : Body d []
  | plain {c : Char} {cs : List Char} (hd : c ≠ d) (hb : c ≠ '\\') (h : Body d cs) : Body d (c :: cs)
  | escaped (c : Char) {cs : List Char} (h : Body d cs) : Body d ('\\' :: c :: cs)

theorem Body.append (h : Body d cs) (h' : Body d cs') : Body d (cs ++ cs') := by
  induction h with
  | nil => exact h'
  | plain hd hb _ ih => exact .plain hd hb ih
  | escaped c _ ih => exact .escaped c ih

theorem Body.flatMap {α : Type} {f : α → List Char} {as : List α} (h : ∀ a ∈ as, Body d (f a)) :
    Body d (as.flatMap f) := by
  induction as with
  | nil => exact .nil
  | cons a as ih =>
      rw [List.flatMap_cons]
      exact (h a List.mem_cons_self).append (ih fun b hb => h b (List.mem_cons_of_mem a hb))

/-- A reader takes in the whole body and is still inside. -/
theorem scan_body (h : Body d cs) (body rest : List Char) :
    scan (.inside d body) (cs ++ rest) = scan (.inside d (body ++ cs)) rest := by
  induction h generalizing body with
  | nil => rw [List.nil_append, List.append_nil]
  | plain hd hb _ ih => rw [List.cons_append, scan, if_neg hb, if_neg hd, ih, List.append_assoc, List.singleton_append]
  | escaped c _ ih =>
      rw [List.cons_append, List.cons_append, scan, if_pos rfl, scan, ih, List.append_assoc]
      rfl

/-- A delimiter ends a body in one place only. -/
theorem Body.unique (hd : d ≠ '\\') (h : Body d bs) (h' : Body d bs') (he : bs ++ d :: rest = bs' ++ d :: rest') :
    bs = bs' ∧ rest = rest' := by
  induction h generalizing bs' with
  | nil =>
      cases h' with
      | nil => exact ⟨rfl, (List.cons.inj he).2⟩
      | plain hne _ _ => exact absurd (List.cons.inj he).1.symm hne
      | escaped c _ => exact absurd (List.cons.inj he).1 hd
  | plain hne hb _ ih =>
      cases h' with
      | nil => exact absurd (List.cons.inj he).1 hne
      | plain _ _ h' =>
          obtain ⟨rfl, hcs⟩ := List.cons.inj he
          obtain ⟨rfl, hr⟩ := ih h' hcs
          exact ⟨rfl, hr⟩
      | escaped c _ => exact absurd (List.cons.inj he).1 hb
  | escaped c _ ih =>
      cases h' with
      | nil => exact absurd (List.cons.inj he).1.symm hd
      | plain _ hb _ => exact absurd (List.cons.inj he).1.symm hb
      | escaped c' h' =>
          obtain ⟨rfl, hcs⟩ := List.cons.inj (List.cons.inj he).2
          obtain ⟨rfl, hr⟩ := ih h' hcs
          exact ⟨rfl, hr⟩

end Bodies

section Encodings

/-- What is written behind a backslash, each with the character that it stands for. -/
def escapes : List (Char × Char) := [('"', '"'), ('\\', '\\'), ('n', '\n'), ('r', '\r'), ('t', '\t')]

theorem encodeChar_cases (c : Char) :
    (encodeChar c = [c] ∧ ∀ p ∈ escapes, p.2 ≠ c) ∨ ∃ e, encodeChar c = ['\\', e] ∧ (e, c) ∈ escapes := by
  unfold encodeChar
  split
  · exact .inr ⟨'"', rfl, by decide⟩
  · exact .inr ⟨'\\', rfl, by decide⟩
  · exact .inr ⟨'n', rfl, by decide⟩
  · exact .inr ⟨'r', rfl, by decide⟩
  · exact .inr ⟨'t', rfl, by decide⟩
  · refine .inl ⟨rfl, ?_⟩
    simp only [escapes, List.mem_cons, List.not_mem_nil, or_false]
    rintro p (rfl | rfl | rfl | rfl | rfl) rfl <;> contradiction

theorem body_encode (cs : List Char) : Body '"' (encode cs) := by
  refine Body.flatMap fun c _ => ?_
  rcases encodeChar_cases c with ⟨he, hne⟩ | ⟨e, he, -⟩
  · rw [he]
    exact .plain (hne ('"', '"') (by decide)).symm (hne ('\\', '\\') (by decide)).symm .nil
  · rw [he]
    exact .escaped e .nil

theorem unescape_cons {c : Char} (h : c ≠ '\\') (cs : List Char) : unescape (c :: cs) = c :: unescape cs := by
  rw [unescape]
  · exact fun he => absurd he h
  · exact fun _ _ he => absurd he h

theorem unescape_encode (cs : List Char) : unescape (encode cs) = cs := by
  induction cs with
  | nil => rfl
  | cons c cs ih =>
      rw [encode, List.flatMap_cons]
      rcases encodeChar_cases c with ⟨he, hne⟩ | ⟨e, he, hmem⟩
      · rw [he, List.singleton_append, unescape_cons (hne ('\\', '\\') (by decide)).symm]
        exact congrArg _ ih
      · have hc : ∀ p ∈ escapes, unescapeChar p.1 = p.2 := by decide
        rw [he, List.cons_append, List.singleton_append, unescape, hc (e, c) hmem]
        exact congrArg _ ih

/-- A pattern with each slash in it behind a backslash. -/
def slashes (cs : List Char) : List Char := cs.flatMap fun c => if c = '/' then ['\\', '/'] else [c]

theorem slashes_escapeChar (c : Char) :
    (slashes (escapeChar c) = [c] ∧ c ≠ '/' ∧ c ≠ '\\' ∧ escapeChar c = [c]) ∨
      (slashes (escapeChar c) = ['\\', '/'] ∧ escapeChar c = ['/']) ∨
      (slashes (escapeChar c) = ['\\', c] ∧ c ≠ '/' ∧ escapeChar c = ['\\', c]) := by
  unfold escapeChar
  by_cases hm : metaChars.contains c = true
  · have hs : c ≠ '/' := by
      rintro rfl
      cases hm
    rw [if_pos hm]
    refine .inr (.inr ⟨?_, hs, rfl⟩)
    simp [slashes, hs]
  · rw [if_neg hm]
    by_cases hs : c = '/'
    · subst hs
      exact .inr (.inl ⟨rfl, rfl⟩)
    · have hb : c ≠ '\\' := by
        rintro rfl
        exact hm rfl
      exact .inl ⟨by simp [slashes, hs], hs, hb, rfl⟩

theorem slashes_flatMap (cs : List Char) :
    slashes (cs.flatMap escapeChar) = cs.flatMap fun c => slashes (escapeChar c) := List.flatMap_assoc

theorem toList_startingWith (s : String) : (startingWith s).toList = '^' :: s.toList.flatMap escapeChar :=
  String.toList_ofList

theorem slashes_startingWith (s : String) :
    slashes (startingWith s).toList = '^' :: s.toList.flatMap fun c => slashes (escapeChar c) := by
  rw [toList_startingWith, ← slashes_flatMap]
  rfl

theorem body_slashes (s : String) : Body '/' (slashes (startingWith s).toList) := by
  rw [slashes_startingWith]
  refine .plain (by decide) (by decide) (Body.flatMap fun c _ => ?_)
  rcases slashes_escapeChar c with ⟨he, hs, hb, -⟩ | ⟨he, -⟩ | ⟨he, -⟩
  · rw [he]
    exact .plain hs hb .nil
  · rw [he]
    exact .escaped '/' .nil
  · rw [he]
    exact .escaped c .nil

theorem unslash_cons {c : Char} (h : c ≠ '\\') (cs : List Char) : unslash (c :: cs) = c :: unslash cs := by
  rw [unslash]
  · exact fun he => absurd he h
  · exact fun _ _ he => absurd he h

theorem unslash_slashes (s : String) : unslash (slashes (startingWith s).toList) = (startingWith s).toList := by
  rw [slashes_startingWith, toList_startingWith, unslash_cons (by decide)]
  refine congrArg _ ?_
  induction s.toList with
  | nil => rfl
  | cons c cs ih =>
      rw [List.flatMap_cons, List.flatMap_cons]
      rcases slashes_escapeChar c with ⟨he, -, hb, hc⟩ | ⟨he, hc⟩ | ⟨he, hs, hc⟩
      · rw [he, hc, List.singleton_append, unslash_cons hb, ih]
        rfl
      · rw [he, hc, List.cons_append, List.singleton_append, unslash, if_pos rfl, ih]
        rfl
      · rw [he, hc, List.cons_append, List.singleton_append, unslash, if_neg hs, ih]
        rfl

end Encodings

section Scans

variable {cs cs' blank blank' : List Char} {ps ps' : List Piece} {ws ws' : List Word}

/-- A text of some pieces, whatever stands after it. -/
def Scans (cs : List Char) (ps : List Piece) : Prop :=
  ∀ rest, scan .outside (cs ++ rest) = (scan .outside rest).map (ps ++ ·)

theorem Scans.eq (h : Scans cs ps) : scan .outside cs = some ps := by
  have hall := h []
  rw [List.append_nil] at hall
  rw [hall]
  exact congrArg some (List.append_nil ps)

theorem Scans.append (h : Scans cs ps) (h' : Scans cs' ps') : Scans (cs ++ cs') (ps ++ ps') := by
  intro rest
  rw [List.append_assoc, h, h', Option.map_map]
  refine congrArg (Option.map · _) (funext fun qs => ?_)
  exact (List.append_assoc ps ps' qs).symm

/-- A text without delimiters. -/
def Plain (cs : List Char) : Prop := ∀ c ∈ cs, isDelimiter c = false

instance (cs : List Char) : Decidable (Plain cs) := List.decidableBAll _ cs

theorem Plain.append (h : Plain cs) (h' : Plain cs') : Plain (cs ++ cs') :=
  List.forall_mem_append.2 ⟨h, h'⟩

theorem scans_plain (h : Plain cs) : Scans cs (cs.map .plain) := by
  intro rest
  induction cs with
  | nil => exact (Option.map_id_apply).symm
  | cons c cs ih =>
      obtain ⟨hc, hcs⟩ := List.forall_mem_cons.1 h
      rw [List.cons_append, scan, hc, ih hcs, Option.map_map]
      rfl

theorem scans_literal {d : Char} (hd : isDelimiter d = true) (h : Body d cs) :
    Scans (d :: (cs ++ [d])) [.literal d cs] := by
  intro rest
  have hne : d ≠ '\\' := by
    rintro rfl
    cases hd
  rw [List.cons_append, List.append_assoc, scan, if_pos hd, scan_body h, List.singleton_append, scan, if_neg hne,
    if_pos rfl]
  rfl

/-- Pieces with their literals emptied. -/
def outline (ps : List Piece) : List Piece := ps.map fun
  | .plain c => .plain c
  | .literal d _ => .literal d []

theorem outline_append (ps ps' : List Piece) : outline (ps ++ ps') = outline ps ++ outline ps' := List.map_append

theorem words_append (ps ps' : List Piece) : words (ps ++ ps') = words ps ++ words ps' := by
  rw [words, literals, List.filterMap_append, List.map_append]
  rfl

theorem outside_of_outline (h : outline ps = outline ps') : outside ps = outside ps' := by
  have hall : ∀ ps, outside (outline ps) = outside ps := by
    intro ps
    rw [outside, outline, List.filterMap_map, outside]
    congr 1
    funext p
    cases p <;> rfl
  rw [← hall, h, hall]

theorem length_literals_of_outline (h : outline ps = outline ps') : (literals ps).length = (literals ps').length := by
  have hall : ∀ ps, (literals (outline ps)).length = (literals ps).length := by
    intro ps
    induction ps with
    | nil => rfl
    | cons p ps ih => cases p <;> simpa [literals, outline] using ih
  rw [← hall, h, hall]

/-- A text whose literals stand for some words, and which differs from another in their bodies only. -/
def Reads (cs blank : List Char) (ws : List Word) : Prop :=
  ∃ ps qs, Scans cs ps ∧ Scans blank qs ∧ outline ps = outline qs ∧ words ps = ws

namespace Reads

theorem plain (h : Plain cs) : Reads cs cs [] := by
  refine ⟨_, _, scans_plain h, scans_plain h, rfl, ?_⟩
  induction cs with
  | nil => rfl
  | cons c cs ih => exact ih (List.forall_mem_cons.1 h).2

theorem append (h : Reads cs blank ws) (h' : Reads cs' blank' ws') :
    Reads (cs ++ cs') (blank ++ blank') (ws ++ ws') := by
  obtain ⟨ps, qs, hps, hqs, ho, rfl⟩ := h
  obtain ⟨ps', qs', hps', hqs', ho', rfl⟩ := h'
  refine ⟨ps ++ ps', qs ++ qs', hps.append hps', hqs.append hqs', ?_, words_append ps ps'⟩
  rw [outline_append, outline_append, ho, ho']

theorem nil : Reads [] [] [] := plain (by decide)

theorem as (h : Reads cs blank ws) (hw : ws = ws') : Reads cs blank ws' := hw ▸ h

theorem between (before after : List Char) (hb : Plain before) (ha : Plain after) (h : Reads cs blank ws) :
    Reads (before ++ (cs ++ after)) (before ++ (blank ++ after)) ws := by
  have hall := (plain hb).append (h.append (plain ha))
  rwa [List.append_nil] at hall

theorem literal {d : Char} {body : List Char} (hd : isDelimiter d = true) (h : Body d body) (h' : Body d blank) :
    Reads (d :: (body ++ [d])) (d :: (blank ++ [d])) [decode d body] :=
  ⟨[.literal d body], [.literal d blank], scans_literal hd h, scans_literal hd h', rfl, rfl⟩

theorem quoted (s s' : String) : Reads (Quoted.quoted s) (Quoted.quoted s') [.text s] := by
  have h : Reads (Quoted.quoted s) (Quoted.quoted s') _ := literal rfl (body_encode s.toList) (body_encode s'.toList)
  rwa [decode, if_pos rfl, unescape_encode, String.ofList_toList] at h

theorem slashed (s s' : String) : Reads (Quoted.slashed (startingWith s)) (Quoted.slashed (startingWith s'))
    [.pattern (startingWith s)] := by
  have h := literal rfl (body_slashes s) (body_slashes s')
  rwa [decode, if_neg (by decide), unslash_slashes, String.ofList_toList] at h

end Reads

/-- Texts of which each differs from another in the bodies of its literals only. -/
inductive ReadsAll : List (List Char) → List (List Char) → List Word → Prop
  | nil : ReadsAll [] [] []
  | cons {cs blank : List Char} {css blanks : List (List Char)} {ws ws' : List Word} (h : Reads cs blank ws)
      (hs : ReadsAll css blanks ws') : ReadsAll (cs :: css) (blank :: blanks) (ws ++ ws')

namespace ReadsAll

variable {css css' blanks blanks' : List (List Char)} {ι : Type} {is : List ι}

theorem one (h : Reads cs blank ws) : ReadsAll [cs] [blank] ws := List.append_nil ws ▸ cons h nil

theorem append (h : ReadsAll css blanks ws) (h' : ReadsAll css' blanks' ws') :
    ReadsAll (css ++ css') (blanks ++ blanks') (ws ++ ws') := by
  induction h with
  | nil => exact h'
  | cons h _ ih =>
      rw [List.append_assoc]
      exact .cons h ih

theorem flatMap {f f' : ι → List (List Char)} {w : ι → List Word} (h : ∀ i ∈ is, ReadsAll (f i) (f' i) (w i)) :
    ReadsAll (is.flatMap f) (is.flatMap f') (is.flatMap w) := by
  induction is with
  | nil => exact .nil
  | cons i is ih =>
      rw [List.flatMap_cons, List.flatMap_cons, List.flatMap_cons]
      exact (h i List.mem_cons_self).append (ih fun j hj => h j (List.mem_cons_of_mem i hj))

theorem flatten (h : ReadsAll css blanks ws) : Reads css.flatten blanks.flatten ws := by
  induction h with
  | nil => exact .nil
  | cons h _ ih => exact h.append ih

theorem joined (separator : List Char) (hs : Plain separator) (h : ReadsAll css blanks ws) :
    Reads (Quoted.joined separator css) (Quoted.joined separator blanks) ws := by
  induction h with
  | nil => exact .nil
  | cons h hs' ih =>
      cases hs' with
      | nil =>
          rw [List.append_nil]
          exact h
      | cons _ _ =>
          have hhead := h.between [] separator (by decide) hs
          exact hhead.append ih

end ReadsAll

/-- Texts that differ from one text in the bodies of literals only. -/
theorem Reads.alike (h : Reads cs blank ws) (h' : Reads cs' blank ws') : ∃ ps ps', scan .outside cs = some ps ∧
    scan .outside cs' = some ps' ∧ outline ps = outline ps' ∧ words ps = ws ∧ words ps' = ws' := by
  obtain ⟨ps, qs, hps, hqs, ho, hw⟩ := h
  obtain ⟨ps', qs', hps', hqs', ho', hw'⟩ := h'
  obtain rfl : qs = qs' := Option.some.inj (hqs.eq.symm.trans hqs'.eq)
  exact ⟨ps, ps', hps.eq, hps'.eq, ho.trans ho'.symm, hw, hw'⟩

end Scans

end Inventory.Literals
