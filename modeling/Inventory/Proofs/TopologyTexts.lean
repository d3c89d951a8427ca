import Inventory.Proofs.QueryTexts
import Inventory.Proofs.TopologyLevels

/-!
The texts of queries along topologies. Levels and scopes stand in literals, but the name of the topology is written as
it is, so that a text has the structure of its levels exactly if that name has safe characters only.
-/

namespace Inventory.TopologyTexts

open Text Query Listing Hierarchy Literals SafeNames NumberTexts FilterTexts QueryTexts TopologyLevels

section Readings

variable {cs cs' : List Char} {ps qs : List Piece} {d : Char} {body : List Char} {place : Place}

/-- A piece of a text without backslashes outside of its literals, which all stand between quotes. -/
def Tidy : Piece → Prop
  | .plain c => c ≠ '\\'
  | .literal d _ => d = '"'

theorem tidy_outline : (∀ p ∈ outline ps, Tidy p) ↔ ∀ p ∈ ps, Tidy p := by
  rw [outline, List.forall_mem_map]
  refine forall₂_congr fun p _ => ?_
  cases p <;> rfl

/-- The delimiter that a reader waits for. -/
def awaited : Place → Option Char
  | .outside => none
  | .inside d _ | .escaped d _ => some d

theorem mem_of_awaited (hd : awaited place = some d) (h : scan place cs = some ps) : ∃ b, .literal d b ∈ ps := by
  induction place, cs using scan.induct generalizing ps with
  | case1 => cases hd
  | case2 | case3 => cases h
  | case4 | case5 => cases hd
  | case6 d body cs ih => exact ih hd h
  | case7 body c cs hb ih =>
      rw [scan, if_neg hb, if_pos rfl] at h
      obtain ⟨ps', -, rfl⟩ := Option.map_eq_some_iff.1 h
      cases hd
      exact ⟨body, List.mem_cons_self⟩
  | case8 d body c cs hb hne ih =>
      rw [scan, if_neg hb, if_neg hne] at h
      exact ih hd h
  | case9 d body c cs ih => exact ih hd h

/-- No text is tidy both from outside and from within quotes: each quote swaps the two readings, and one of them is
left open. -/
theorem not_tidy_twice (h : scan .outside cs = some ps) (hp : ∀ p ∈ ps, Tidy p)
    (h' : scan (.inside '"' body) cs = some qs) (hq : ∀ q ∈ qs, Tidy q) : False := by
  induction cs generalizing body ps qs with
  | nil => cases h'
  | cons c cs ih =>
      rw [scan] at h
      rw [scan] at h'
      split at h
      · rename_i hc
        rcases (Bool.or_eq_true _ _).mp hc with hc | hc
        · obtain rfl := eq_of_beq hc
          obtain ⟨qs', hqs, rfl⟩ := Option.map_eq_some_iff.1 h'
          exact ih hqs (List.forall_mem_cons.1 hq).2 h hp
        · obtain rfl := eq_of_beq hc
          obtain ⟨b, hb⟩ := mem_of_awaited rfl h
          cases hp _ hb
      · rename_i hc
        obtain ⟨ps', hps, rfl⟩ := Option.map_eq_some_iff.1 h
        obtain ⟨hb, hp'⟩ := List.forall_mem_cons.1 hp
        have hquote : c ≠ '"' := by
          rintro rfl
          exact hc rfl
        rw [if_neg hb, if_neg hquote] at h'
        exact ih hps hp' h' hq

/-- A space that is tidy both for a reader outside of literals and for another stands outside for both. -/
theorem outside_of_tidy (h : scan .outside (' ' :: cs) = some ps) (hp : ∀ p ∈ ps, Tidy p)
    (h' : scan place (' ' :: cs) = some qs) (hq : ∀ q ∈ qs, Tidy q) : place = .outside := by
  cases place with
  | outside => rfl
  | inside d body =>
      obtain ⟨b, hb⟩ := mem_of_awaited rfl h'
      obtain rfl : d = '"' := hq _ hb
      exact (not_tidy_twice h hp h' hq).elim
  | escaped d body =>
      obtain ⟨b, hb⟩ := mem_of_awaited rfl h'
      obtain rfl : d = '"' := hq _ hb
      obtain ⟨ps', hps, rfl⟩ := Option.map_eq_some_iff.1 h
      exact (not_tidy_twice hps (List.forall_mem_cons.1 hp).2 h' hq).elim

theorem scan_append (place : Place) (cs : List Char) :
    ∃ ps next, ∀ rest, scan place (cs ++ rest) = (scan next rest).map (ps ++ ·) := by
  induction place, cs using scan.induct with
  | case1 => exact ⟨[], .outside, fun rest => Option.map_id_apply.symm⟩
  | case2 d body => exact ⟨[], .inside d body, fun rest => Option.map_id_apply.symm⟩
  | case3 d body => exact ⟨[], .escaped d body, fun rest => Option.map_id_apply.symm⟩
  | case4 c cs hc ih =>
      obtain ⟨ps, next, h⟩ := ih
      exact ⟨ps, next, fun rest => by rw [List.cons_append, scan, if_pos hc, h]⟩
  | case5 c cs hc ih =>
      obtain ⟨ps, next, h⟩ := ih
      refine ⟨.plain c :: ps, next, fun rest => ?_⟩
      rw [List.cons_append, scan, if_neg hc, h, Option.map_map]
      rfl
  | case6 d body cs ih =>
      obtain ⟨ps, next, h⟩ := ih
      exact ⟨ps, next, fun rest => by rw [List.cons_append, scan, if_pos rfl, h]⟩
  | case7 body c cs hb ih =>
      obtain ⟨ps, next, h⟩ := ih
      refine ⟨.literal c body :: ps, next, fun rest => ?_⟩
      rw [List.cons_append, scan, if_neg hb, if_pos rfl, h, Option.map_map]
      rfl
  | case8 d body c cs hb hne ih =>
      obtain ⟨ps, next, h⟩ := ih
      exact ⟨ps, next, fun rest => by rw [List.cons_append, scan, if_neg hb, if_neg hne, h]⟩
  | case9 d body c cs ih =>
      obtain ⟨ps, next, h⟩ := ih
      exact ⟨ps, next, fun rest => by rw [List.cons_append, scan, h]⟩

/-- A text whose outline is that of one without literals is that text. -/
theorem eq_of_outline_plain (h : scan .outside cs = some ps) (ho : outline ps = cs'.map .plain) : cs = cs' := by
  induction cs generalizing ps cs' with
  | nil =>
      cases h
      exact (List.map_eq_nil_iff.1 ho.symm).symm
  | cons c cs ih =>
      rw [scan] at h
      split at h
      · obtain ⟨b, hb⟩ := mem_of_awaited rfl h
        have hmem : Piece.literal c [] ∈ outline ps := List.mem_map.2 ⟨_, hb, rfl⟩
        rw [ho] at hmem
        obtain ⟨_, -, he⟩ := List.mem_map.1 hmem
        cases he
      · obtain ⟨ps', hps, rfl⟩ := Option.map_eq_some_iff.1 h
        cases cs' with
        | nil => cases ho
        | cons c' cs' =>
            obtain ⟨hc, hcs⟩ := List.cons.inj ho
            rw [ih hps hcs, Piece.plain.inj hc]

end Readings

section Cleanness

variable {cs cs' : List Char} {ps qs : List Piece} {name : String}

/-- A text without backslashes and slashes. -/
def Clean (cs : List Char) : Prop := ∀ c ∈ cs, c ≠ '\\' ∧ c ≠ '/'

instance (cs : List Char) : Decidable (Clean cs) := List.decidableBAll _ cs

theorem Clean.append (h : Clean cs) (h' : Clean cs') : Clean (cs ++ cs') := List.forall_mem_append.2 ⟨h, h'⟩

theorem clean_safe (h : Safe name) : Clean name.toList := by
  intro c hc
  have hsafe := h c hc
  constructor
  · rintro rfl
    cases hsafe
  · rintro rfl
    cases hsafe

/-- Quotes alone can stand around the literals of a clean text. -/
theorem tidy_of_clean {place : Place} (hp : ∀ d ∈ awaited place, d = '"') (hc : Clean cs)
    (h : scan place cs = some ps) : ∀ p ∈ ps, Tidy p := by
  induction place, cs using scan.induct generalizing ps with
  | case1 =>
      cases h
      exact fun p hp => absurd hp List.not_mem_nil
  | case2 | case3 => cases h
  | case4 c cs hd ih =>
      obtain ⟨hc, hcs⟩ := List.forall_mem_cons.1 hc
      rw [scan, if_pos hd] at h
      refine ih ?_ hcs h
      rintro d ⟨⟩
      simpa [isDelimiter, hc.2] using hd
  | case5 c cs hd ih =>
      obtain ⟨hc, hcs⟩ := List.forall_mem_cons.1 hc
      rw [scan, if_neg hd] at h
      obtain ⟨ps', hps, rfl⟩ := Option.map_eq_some_iff.1 h
      exact List.forall_mem_cons.2 ⟨hc.1, ih hp hcs hps⟩
  | case6 d body cs ih => exact absurd rfl (List.forall_mem_cons.1 hc).1.1
  | case7 body c cs hb ih =>
      rw [scan, if_neg hb, if_pos rfl] at h
      obtain ⟨ps', hps, rfl⟩ := Option.map_eq_some_iff.1 h
      exact List.forall_mem_cons.2 ⟨hp c rfl, ih (fun _ hd => by cases hd) (List.forall_mem_cons.1 hc).2 hps⟩
  | case8 d body c cs hb hne ih =>
      rw [scan, if_neg hb, if_neg hne] at h
      exact ih hp (List.forall_mem_cons.1 hc).2 h
  | case9 d body c cs ih => exact ih hp (List.forall_mem_cons.1 hc).2 h

/-- A text that has the outline of a clean one, and ends in what differs from the end of that in the bodies of literals
only, begins as it does. -/
theorem eq_of_alike {head head' rest rest' : List Char} {ws : List Word} (hr : Reads (' ' :: rest) rest' ws)
    (hp : Plain head') (hc : Clean (head' ++ rest')) (h : scan .outside (head ++ ' ' :: rest) = some ps)
    (h' : scan .outside (head' ++ rest') = some qs) (ho : outline ps = outline qs) : head = head' := by
  obtain ⟨bs, blanks, hbs, hblanks, hbo, -⟩ := hr
  have hqtidy := tidy_of_clean (fun _ hd => by cases hd) hc h'
  obtain rfl : qs = head'.map .plain ++ blanks := Option.some.inj (h'.symm.trans ((scans_plain hp).append hblanks).eq)
  have hptidy : ∀ p ∈ ps, Tidy p := by
    rw [← tidy_outline, ho, tidy_outline]
    exact hqtidy
  have hbtidy : ∀ p ∈ bs, Tidy p := by
    rw [← tidy_outline, hbo, tidy_outline]
    exact fun p hp => hqtidy p (List.mem_append_right _ hp)
  -- The head is no part of a literal, since what stands behind it would be tidy from outside and from within.
  obtain ⟨xs, place, hx⟩ := scan_append .outside head
  rw [hx] at h
  obtain ⟨rs, hrs, rfl⟩ := Option.map_eq_some_iff.1 h
  obtain rfl := outside_of_tidy hbs.eq hbtidy hrs fun p hp => hptidy p (List.mem_append_right _ hp)
  obtain rfl : rs = bs := Option.some.inj (hrs.symm.trans hbs.eq)
  have hxs : scan .outside head = some xs := by
    have hnil := hx []
    rw [List.append_nil] at hnil
    rw [hnil]
    exact congrArg some (List.append_nil xs)
  refine eq_of_outline_plain hxs ?_
  rw [outline_append, outline_append, hbo] at ho
  rw [List.append_cancel_right ho, outline, List.map_map]
  rfl

end Cleanness

section Frames

variable {t : Topology} {anchor : Uid} {scopes : List String} {direction : Direction} {depth i k n : Nat}

theorem isSafeChar_of_mem_digits {base : Nat} {c : Char} (h2 : 2 ≤ base) (h16 : base ≤ 16)
    (h : c ∈ Numeral.digits base n) : Vocabulary.isSafeChar c = true := by
  have hdigit : ∀ d, d < 16 → Vocabulary.isSafeChar (Numeral.digitChar d) = true := by decide
  obtain ⟨d, hd, rfl⟩ := Numeral.mem_digits h2 h
  exact hdigit d (Nat.lt_of_lt_of_le hd h16)

theorem safe_uid (u : Uid) : Safe u.text := by
  rw [Safe, Uid.text, String.toList_ofList]
  refine List.forall_mem_cons.2 ⟨by decide, List.forall_mem_cons.2 ⟨by decide, fun c hc => ?_⟩⟩
  exact isSafeChar_of_mem_digits (by decide) (by decide) hc

theorem safe_numbered {word : String} (hw : Safe word) (i : Nat) : Safe (word ++ Numeral.decimal i) := by
  rw [Safe, String.toList_append, Numeral.decimal, String.toList_ofList]
  exact List.forall_mem_append.2 ⟨hw, fun c hc => isSafeChar_of_mem_digits (by decide) (by decide) hc⟩

theorem safe_levelVar (i : Nat) : Safe (levelVar i) := safe_numbered (by decide) i

theorem safe_levelBlock (i : Nat) : Safe (levelBlock i) := safe_numbered (by decide) i

/-- A topology of so many levels in a direction. -/
def blankLevels (n : Nat) (two_le : 2 ≤ n) (direction : Direction) : Topology where
  name := ""
  levels := List.replicate n "a"
  direction := direction
  two_le := by rwa [List.length_replicate]
  not_blank := by
    refine List.all_eq_true.2 fun l hl => ?_
    rw [List.eq_of_mem_replicate hl]
    decide

/-- The query of some name along so many levels in a direction, from an anchor and in so many scopes. -/
def frame (name : String) (n : Nat) (two_le : 2 ≤ n) (direction : Direction) (anchor : Uid) (k : Nat) : Query :=
  { topology (blankLevels n two_le direction) anchor (List.replicate k "") with name }

/-- What a query without variables has behind its name. -/
def behind (bs : List Block) : List Char := " \x7b\n".toList ++ ((bs.map Block.chars).flatten ++ ['\x7d'])

theorem chars_eq {q : Query} (h : q.params = []) : q.chars = "query ".toList ++ q.name.toList ++ behind q.blocks := by
  have hchars : q.chars = "query ".toList ++ q.name.toList ++ paramClause q.params ++ " \x7b\n".toList ++
      q.blocks.flatMap Block.chars ++ ['\x7d'] := rfl
  rw [hchars, h, behind, ← List.flatMap_def]
  simp only [paramClause, List.isEmpty_nil, if_true, List.append_nil, List.append_assoc]

section Alike

/-- What the filters of some levels stand for. -/
def levelWords (levels scopes : List String) : List Word := levels.flatMap fun l => .text l :: scopeWords scopes

theorem reads_levelHops (direction : Direction) (scopes levels : List String) (i depth : Nat) :
    Reads (Traversal.charsAll depth (levelHops direction scopes i levels))
      (Traversal.charsAll depth (levelHops direction (emptiedScopes scopes) i (levels.map fun _ => "a")))
      (levelWords levels scopes) := by
  induction levels generalizing i depth with
  | nil => exact .nil
  | cons level levels ih =>
      have hbinds : Plain (binding (some (levelVar i))) := (plain_safe (safe_levelVar i)).append (by decide)
      have hedge : Plain (direction.edge Vocabulary.parent).chars := by cases direction <;> decide
      have hfilter := reads_some (reads_typeFilter level "a" scopes)
      cases levels with
      | nil => exact (reads_hop _ hbinds hedge hfilter).append .nil
      | cons level' levels =>
          have hinner := ih (i + 1) (depth + 1)
          simp only [List.map_cons, levelHops, Traversal.charsAll, List.append_nil] at hinner
          have hall : Reads (Traversal.charsAll depth (levelHops direction scopes i (level :: level' :: levels)))
              (Traversal.charsAll depth
                (levelHops direction (emptiedScopes scopes) i ((level :: level' :: levels).map fun _ => "a"))) _ :=
            (reads_hops _ hbinds hedge hfilter hinner).append .nil
          exact hall.as (by simp [levelWords, scopeWords])

theorem reads_rootBlock (t : Topology) (anchor : Uid) (scopes : List String) :
    Reads (rootBlock t scopes anchor).chars
      (rootBlock (blankLevels t.levels.length t.two_le t.direction) (emptiedScopes scopes) anchor).chars
      (levelWords t.levels scopes) := by
  have hbinds : Plain (binding (some (levelVar 0))) := (plain_safe (safe_levelVar 0)).append (by decide)
  have hroot : Plain (Root.uid [.node anchor]).chars := .append (.append (by decide) (plain_uid anchor)) (by decide)
  have hhops := reads_levelHops t.direction scopes t.levels.tail 1 2
  rw [List.map_const', List.length_tail, ← List.tail_replicate] at hhops
  have hblock : Reads (rootBlock t scopes anchor).chars
      (rootBlock (blankLevels t.levels.length t.two_le t.direction) (emptiedScopes scopes) anchor).chars _ :=
    reads_block (.bare rfl hbinds rfl rfl rfl rfl rfl rfl) (.plain hroot)
      (reads_some (reads_typeFilter t.anchorType _ scopes)) hhops
  obtain ⟨name, levels, direction, two_le, not_blank⟩ := t
  cases levels with
  | nil => cases two_le
  | cons level levels => exact hblock.as (by simp [levelWords, scopeWords, Topology.anchorType])

theorem reads_reachedRows (i : Nat) : Reads (reachedRows (levelBlock i) (levelVar i)).chars
    (reachedRows (levelBlock i) (levelVar i)).chars [] := by
  have hnone : Plain [] := by decide
  have hroot : Plain (Root.uid (uidVar (levelVar i))).chars :=
    .append (.append (by decide) (plain_safe (safe_levelVar i))) (by decide)
  have horder : Plain (orderClause (some ⟨Vocabulary.identifier, .asc⟩)) := by decide
  have hselections : Plain (Selection.charsAll 2 [.field idLabel Vocabulary.uid,
    .field identifierLabel Vocabulary.identifier, .field typeLabel Vocabulary.equipmentType]) := by decide
  have hframed : Framed (reachedRows (levelBlock i) (levelVar i)) (reachedRows (levelBlock i) (levelVar i)) :=
    ⟨rfl, hnone, plain_safe (safe_levelBlock i), horder, hnone, hnone, hnone, hselections⟩
  exact reads_block hframed (.plain hroot) .nil .nil

theorem reads_blocks (t : Topology) (anchor : Uid) (scopes : List String) :
    ReadsBlocks (topology t anchor scopes).blocks
      (frame t.name t.levels.length t.two_le t.direction anchor scopes.length).blocks (levelWords t.levels scopes) := by
  have hrows : ∀ is : List Nat, ReadsBlocks (is.map fun i => reachedRows (levelBlock i) (levelVar i))
      (is.map fun i => reachedRows (levelBlock i) (levelVar i)) [] := by
    intro is
    induction is with
    | nil => exact .nil
    | cons i is ih => exact .cons (reads_reachedRows i) ih
  have hcount : Reads (counted existsBlock (levelVar 0)).chars (counted existsBlock (levelVar 0)).chars [] :=
    reads_count (levelVar 0) existsBlock (safe_levelVar 0) (by decide) .nil
  have hblocks := ReadsBlocks.cons (reads_rootBlock t anchor scopes) (.cons hcount (hrows (List.range' 1 t.hops)))
  have hhops : (blankLevels t.levels.length t.two_le t.direction).hops = t.hops := by
    simp [blankLevels, Topology.hops]
  rw [emptiedScopes, List.map_const', List.append_nil, List.append_nil] at hblocks
  rw [frame, topology, topology, hhops]
  exact hblocks

end Alike

section Clean

theorem clean_joined {separator : List Char} {xs : List (List Char)} (hs : Clean separator)
    (h : ∀ x ∈ xs, Clean x) : Clean (Quoted.joined separator xs) := by
  induction xs with
  | nil => exact fun c hc => absurd hc List.not_mem_nil
  | cons x xs ih =>
      obtain ⟨hx, hxs⟩ := List.forall_mem_cons.1 h
      cases xs with
      | nil => exact hx
      | cons y ys => exact (hx.append hs).append (ih hxs)

theorem clean_typeClause (k : Nat) : Clean (filterClause (some (typeFilter "a" (List.replicate k "")))) := by
  have hscopes : Clean (Quoted.joined ", ".toList ((List.replicate k "").map Quoted.quoted)) := by
    refine clean_joined (by decide) fun x hx => ?_
    obtain ⟨s, hs, rfl⟩ := List.mem_map.1 hx
    rw [List.eq_of_mem_replicate hs]
    decide
  have hscoped : Clean (comparison "eq" Vocabulary.scopes (.ofStrings (List.replicate k ""))) := by
    rw [comparison_eq, literal_strings]
    exact .append (by decide) (.append (.append (by decide) (hscopes.append (by decide))) (by decide))
  have htype : Clean (comparison "eq" Vocabulary.equipmentType (.str "a")) := by decide
  have hjoined : Clean (Quoted.joined " AND ".toList [comparison "eq" Vocabulary.equipmentType (.str "a"),
      comparison "eq" Vocabulary.scopes (.ofStrings (List.replicate k ""))]) :=
    clean_joined (by decide) fun x hx => by
      rcases List.mem_pair.1 hx with rfl | rfl
      · exact htype
      · exact hscoped
  rw [chars_filterClause, typeFilter, chars_and]
  exact .append (by decide) (.append (.append (by decide) (hjoined.append (by decide))) (by decide))

theorem clean_indent (depth : Nat) : Clean (indent depth) := by
  intro c hc
  rw [List.eq_of_mem_replicate hc]
  decide

theorem clean_levelHops (direction : Direction) (k n i depth : Nat) :
    Clean (Traversal.charsAll depth (levelHops direction (List.replicate k "") i (List.replicate n "a"))) := by
  have hnone : Clean [] := by decide
  induction n generalizing i depth with
  | zero => exact hnone
  | succ n ih =>
      have hbinds : Clean (binding (some (levelVar i))) := (clean_safe (safe_levelVar i)).append (by decide)
      have hedge : Clean (direction.edge Vocabulary.parent).chars := by cases direction <;> decide
      have hhead := (((clean_indent depth).append hbinds).append hedge).append (clean_typeClause k)
      refine (hhead.append ?_).append hnone
      split
      · decide
      · exact (((show Clean " \x7b\n".toList by decide).append (ih (i + 1) (depth + 1))).append
          (clean_indent depth)).append (by decide)

theorem clean_block {b : Block} (hpaged : b.first = none ∧ b.offset = none ∧ b.recursion = none)
    (hbinds : Clean (binding b.bind)) (hname : Clean (b.name.getD "var").toList) (hroot : Clean b.root.chars)
    (horder : Clean (orderClause b.order)) (hfilter : Clean (filterClause b.filter))
    (hhops : Clean (Traversal.charsAll 2 b.traversals)) (hselections : Clean (Selection.charsAll 2 b.selections)) :
    Clean b.chars := by
  obtain ⟨name, bind, root, filter, order, first, offset, recursion, traversals, selections⟩ := b
  obtain ⟨rfl, rfl, rfl⟩ := hpaged
  have hnone : Clean [] := by decide
  have hhead := (((clean_indent 1).append hbinds).append hname).append (show Clean "(func: ".toList by decide)
  have hstart := (((((hhead.append hroot).append horder).append hnone).append hnone).append
    (show Clean [')'] by decide)).append hnone
  have hopened := (hstart.append hfilter).append (show Clean " \x7b\n".toList by decide)
  exact (((hopened.append hhops).append hselections).append (clean_indent 1)).append (by decide)

theorem clean_blocks (two_le : 2 ≤ n) (direction : Direction) (anchor : Uid) (k : Nat) :
    ∀ b ∈ (topology (blankLevels n two_le direction) anchor (List.replicate k "")).blocks, Clean b.chars := by
  have hnone : Clean [] := by decide
  have hvar : Clean "var".toList := by decide
  have huid : ∀ i, Clean (Root.uid (uidVar (levelVar i))).chars := fun i =>
    .append (.append (by decide) (clean_safe (safe_levelVar i))) (by decide)
  refine List.forall_mem_cons.2 ⟨?_, List.forall_mem_cons.2 ⟨?_, List.forall_mem_map.2 fun i _ => ?_⟩⟩
  · have hbinds : Clean (binding (some (levelVar 0))) := (clean_safe (safe_levelVar 0)).append (by decide)
    have hroot : Clean (Root.uid [.node anchor]).chars :=
      .append (.append (by decide) (clean_safe (safe_uid anchor))) (by decide)
    cases n with
    | zero => cases two_le
    | succ n =>
        exact clean_block ⟨rfl, rfl, rfl⟩ hbinds hvar hroot hnone (clean_typeClause k)
          (clean_levelHops direction k n 1 2) hnone
  · have hcount : Clean (Selection.charsAll 2 [.count totalLabel]) := by decide
    exact clean_block ⟨rfl, rfl, rfl⟩ hnone (by decide) (huid 0) hnone hnone hnone hcount
  · have horder : Clean (orderClause (some ⟨Vocabulary.identifier, .asc⟩)) := by decide
    have hrows : Clean (Selection.charsAll 2 [.field idLabel Vocabulary.uid,
        .field identifierLabel Vocabulary.identifier, .field typeLabel Vocabulary.equipmentType]) := by decide
    exact clean_block ⟨rfl, rfl, rfl⟩ hnone (clean_safe (safe_levelBlock i)) (huid i) horder hnone hnone hrows

end Clean

end Frames

/-- A text is that of its levels and direction outside of literals, under some name of safe characters. -/
def Structured (t : Topology) (anchor : Uid) (scopes : List String) : Prop :=
  ∃ name, Safe name ∧ ∃ ps qs, scan .outside (topology t anchor scopes).render.toList = some ps ∧
    scan .outside (frame name t.levels.length t.two_le t.direction anchor scopes.length).render.toList = some qs ∧
    outline ps = outline qs

section Names

variable {t : Topology} {anchor : Uid} {scopes : List String}

theorem toList_render (q : Query) : q.render.toList = q.chars := String.toList_ofList

/-- Behind the name, a text differs from its frame in the bodies of literals only. -/
theorem reads_behind (t : Topology) (anchor : Uid) (scopes : List String) (name : String) :
    Reads (behind (topology t anchor scopes).blocks)
      (behind (frame name t.levels.length t.two_le t.direction anchor scopes.length).blocks)
      (levelWords t.levels scopes) := by
  have hblocks := (reads_blocks t anchor scopes).flatten
  exact hblocks.between " \x7b\n".toList ['\x7d'] (by decide) (by decide)

theorem structured_of_safe (h : Safe t.name) (anchor : Uid) (scopes : List String) : Structured t anchor scopes := by
  have hword : Safe "Topology_" := by decide
  have hname : Safe ("Topology_" ++ t.name) := by
    rw [Safe, String.toList_append]
    exact List.forall_mem_append.2 ⟨hword, h⟩
  have hhead : Plain ("query ".toList ++ ("Topology_" ++ t.name).toList) := .append (by decide) (plain_safe hname)
  obtain ⟨ps, qs, hps, hqs, ho, -⟩ := (Reads.plain hhead).append (reads_behind t anchor scopes _)
  refine ⟨_, hname, ps, qs, ?_, ?_, ho⟩
  · rw [toList_render, chars_eq rfl]
    exact hps.eq
  · rw [toList_render, chars_eq rfl]
    exact hqs.eq

theorem clean_behind {bs : List Block} (h : ∀ b ∈ bs, Clean b.chars) : Clean (behind bs) := by
  have hblocks : Clean (bs.map Block.chars).flatten := by
    intro c hc
    obtain ⟨cs, hcs, hc⟩ := List.mem_flatten.1 hc
    obtain ⟨b, hb, rfl⟩ := List.mem_map.1 hcs
    exact h b hb c hc
  exact .append (by decide) (hblocks.append (by decide))

theorem safe_of_structured (h : Structured t anchor scopes) : Safe t.name := by
  obtain ⟨name, hname, ps, qs, hps, hqs, ho⟩ := h
  rw [toList_render, chars_eq rfl] at hps hqs
  have hplain : Plain ("query ".toList ++ name.toList) := .append (by decide) (plain_safe hname)
  have hclean := ((show Clean "query ".toList by decide).append (clean_safe hname)).append
    (clean_behind (clean_blocks t.two_le t.direction anchor scopes.length))
  have hhead := eq_of_alike (reads_behind t anchor scopes name) hplain hclean hps hqs ho
  have htext : "Topology_".toList ++ t.name.toList = name.toList := by
    rw [← List.append_cancel_left hhead]
    exact String.toList_append.symm
  intro c hc
  refine hname c ?_
  rw [← htext]
  exact List.mem_append_right _ hc

theorem safe_reversed : Safe t.reversed.name ↔ Safe t.name := by
  have hword : Safe "-reversed" := by decide
  have hname : t.reversed.name.toList = t.name.toList ++ "-reversed".toList := by
    change (t.name ++ "-reversed").toList = _
    exact String.toList_append
  rw [Safe, hname, List.forall_mem_append]
  exact and_iff_left hword

end Names

/-- The text of a topology, and that of the topology from its other end, has the structure of its levels and direction
exactly if the name of the topology has safe characters only. -/
theorem structured_iff (t : Topology) (anchor : Uid) (scopes : List String) :
    (Structured t anchor scopes ↔ Safe t.name) ∧ (Structured t.reversed anchor scopes ↔ Safe t.name) := by
  refine ⟨⟨safe_of_structured, fun h => structured_of_safe h anchor scopes⟩, ?_⟩
  rw [← safe_reversed]
  exact ⟨safe_of_structured, fun h => structured_of_safe h anchor scopes⟩

/-- A name that closes the query and comments out what stands behind it. -/
theorem not_structured_hostile : ∃ t, Topology.new "x \x7b \x7d #" ["server", "disk"] .descendants = .ok t ∧
    ¬Structured t ⟨1⟩ ["s1"] := by
  refine ⟨_, rfl, fun h => ?_⟩
  have hsafe : ¬Safe "x \x7b \x7d #" := by decide
  exact hsafe (safe_of_structured h)

end Inventory.TopologyTexts
