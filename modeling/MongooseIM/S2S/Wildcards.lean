import Mathlib.Data.List.Infix
import MongooseIM.Erlang.Binaries
import MongooseIM.S2S.In

/-! # Wildcards in certificates

The labels of a name in a certificate become regular expressions, with `mongoose_lib:sh_to_awk/1`. -/

namespace MongooseIM.S2S.Wildcards

open List

/-- `sh_special_char/1` -/
def shSpecialChar (c : Char) : Bool := "|+()\\^$.]\"".toList.contains c

mutual

/-- `sh_to_awk_1/1` -/
def shToAwk1 : List Char → List Char
  | '*' :: sh => '.' :: '*' :: shToAwk1 sh
  | '?' :: sh => '.' :: shToAwk1 sh
  | '[' :: '^' :: ']' :: sh => '\\' :: '^' :: shToAwk1 sh
  | '[' :: '^' :: sh => '[' :: shToAwk2 sh true
  | '[' :: '!' :: sh => '[' :: '^' :: shToAwk2 sh false
  | '[' :: sh => '[' :: shToAwk2 sh false
  | c :: sh => if shSpecialChar c then '\\' :: c :: shToAwk1 sh else c :: shToAwk1 sh
  | [] => [')', '$']
termination_by sh => 3 * sh.length

/-- `sh_to_awk_2/2` -/
def shToAwk2 : List Char → Bool → List Char
  | ']' :: sh, upArrow => ']' :: shToAwk3 sh upArrow
  | sh, upArrow => shToAwk3 sh upArrow
termination_by sh => 3 * sh.length + 2

/-- `sh_to_awk_3/2` -/
def shToAwk3 : List Char → Bool → List Char
  | ']' :: sh, true => '^' :: ']' :: shToAwk1 sh
  | ']' :: sh, false => ']' :: shToAwk1 sh
  | c :: sh, upArrow => c :: shToAwk3 sh upArrow
  | [], true => '^' :: shToAwk1 []
  | [], false => shToAwk1 []
termination_by sh => 3 * sh.length + 1

end

/-- `sh_to_awk/1` -/
def shToAwk (sh : List Char) : List Char := '^' :: '(' :: shToAwk1 sh

namespace Re

/-- What an expression of `shToAwk` consists of. -/
inductive Item
  | any
  | anyString
  | char (c : Char)

/-- The items up to `)$`, where no bracket is opened. -/
def items : List Char → Option (List Item)
  | [')', '$'] => some []
  | '.' :: '*' :: s => (items s).map (.anyString :: ·)
  | '.' :: s => (items s).map (.any :: ·)
  | '\\' :: c :: s => if c.isAlphanum then none else (items s).map (.char c :: ·)
  | c :: s =>
    if "\\^$.[|()?*+\x7b".toList.contains c then none else (items s).map (.char c :: ·)
  | [] => none

/-- A string without line feed is left out before the rest. -/
def skips (rest : List Char → Bool) : List Char → Bool
  | [] => rest []
  | c :: s => rest (c :: s) || (c ≠ '\n' && skips rest s)

/-- A subject against the items; `$` stands before a line feed at the end, too. -/
def reads : List Item → List Char → Bool
  | [], s => s = [] || s = ['\n']
  | .any :: rest, c :: s => c ≠ '\n' && reads rest s
  | .any :: _, [] => false
  | .anyString :: rest, s => skips (reads rest) s
  | .char c :: rest, c' :: s => c = c' && reads rest s
  | .char _ :: _, [] => false

/-- `re:run/3` with `{capture, none}`, on an expression that begins with `^(`. -/
def Implements (run : (subject regexp : List Char) → Bool) : Prop :=
  ∀ subject regexp list, items regexp = some list →
    run subject ('^' :: '(' :: regexp) = reads list subject

end Re

/-- The characters that `match_labels/2` lets through. -/
def isAllowed (c : Char) : Bool :=
  ('a' ≤ c && c ≤ 'z') || ('0' ≤ c && c ≤ '9') || c = '-' || c = '*'

variable (run : (subject regexp : List Char) → Bool)

/-- `match_labels/2` -/
def matchLabels : (labels patterns : List String) → Bool
  | [], [] => true
  | [], _ :: _ => false
  | _ :: _, [] => false
  | dl :: dLabels, pl :: pLabels =>
    if pl.toList.all isAllowed then
      if run dl.toList (shToAwk pl.toList) then matchLabels dLabels pLabels else false
    else false

/-- `match_domain/2` -/
def matchDomain (domain pattern : String) : Bool :=
  if domain = pattern then true
  else matchLabels run (Erlang.split '.' domain) (Erlang.split '.' pattern)

/-- A text that a pattern stands for, with any string without line feed for `*`. -/
inductive Stands : (pattern text : List Char) → Prop
  | nil : Stands [] []
  | char {c pattern text} (hc : c ≠ '*') (h : Stands pattern text) :
      Stands (c :: pattern) (c :: text)
  | star {pattern text string} (hline : '\n' ∉ string) (h : Stands pattern text) :
      Stands ('*' :: pattern) (string ++ text)

/-- A label against a label of a pattern: a line feed at the end of the label does not count. -/
def LabelMatches (label pattern : String) : Prop :=
  (∀ c ∈ pattern.toList, isAllowed c = true) ∧
    ∃ text, (label.toList = text ∨ label.toList = text ++ ['\n']) ∧ Stands pattern.toList text

/-- The item for a character of a label. -/
def item (c : Char) : Re.Item := if c = '*' then .anyString else .char c

variable {run} {pattern text : List Char} {c : Char}

theorem Stands.head (h : Stands (c :: pattern) text) (hc : c ≠ '*') :
    ∃ rest, text = c :: rest ∧ Stands pattern rest := by
  cases h with
  | char _ h => exact ⟨_, rfl, h⟩
  | star => exact absurd rfl hc

theorem skips_iff {rest : List Char → Bool} : Re.skips rest text = true ↔
    ∃ string text', text = string ++ text' ∧ '\n' ∉ string ∧ rest text' = true := by
  induction text with
  | nil => simp [Re.skips]
  | cons c text ih =>
    simp only [Re.skips, Bool.or_eq_true, Bool.and_eq_true, decide_eq_true_eq, ih]
    constructor
    · rintro (h | ⟨hc, string, text', rfl, hline, h⟩)
      · exact ⟨[], c :: text, rfl, by simp, h⟩
      · exact ⟨c :: string, text', rfl, by simp [hline, Ne.symm hc], h⟩
    · rintro ⟨string, text', heq, hline, h⟩
      cases string with
      | nil => exact .inl (heq ▸ h)
      | cons c' string =>
        obtain ⟨rfl, rfl⟩ := cons.inj heq
        rw [mem_cons, not_or] at hline
        exact .inr ⟨Ne.symm hline.1, string, text', rfl, hline.2, h⟩

/-- An expression for the characters of a label reads the texts that the label stands for. -/
theorem reads_iff : Re.reads (pattern.map item) text = true ↔
    ∃ text', (text = text' ∨ text = text' ++ ['\n']) ∧ Stands pattern text' := by
  induction pattern generalizing text with
  | nil =>
    simp only [map_nil, Re.reads, Bool.or_eq_true, decide_eq_true_eq]
    constructor
    · rintro h
      exact ⟨[], h, .nil⟩
    · rintro ⟨text', h, hstands⟩
      cases hstands
      exact h
  | cons c pattern ih =>
    rw [map_cons, item]
    split
    · next hc =>
      subst hc
      simp only [Re.reads, skips_iff, ih]
      constructor
      · rintro ⟨string, _, rfl, hline, text', h, hstands⟩
        refine ⟨string ++ text', ?_, .star hline hstands⟩
        rcases h with rfl | rfl
        · exact .inl rfl
        · exact .inr (append_assoc ..).symm
      · rintro ⟨text', h, hstands⟩
        cases hstands with
        | char hc => exact absurd rfl hc
        | @star _ rest string hline hrest =>
          rcases h with rfl | rfl
          · exact ⟨string, rest, rfl, hline, rest, .inl rfl, hrest⟩
          · exact ⟨string, rest ++ ['\n'], append_assoc .., hline, rest, .inr rfl, hrest⟩
    · next hc =>
      constructor
      · intro h
        cases text with
        | nil => cases h
        | cons c' text =>
          simp only [Re.reads, Bool.and_eq_true, decide_eq_true_eq] at h
          obtain ⟨rfl, h⟩ := h
          obtain ⟨text', h, hstands⟩ := ih.1 h
          refine ⟨c :: text', ?_, .char hc hstands⟩
          exact h.imp (congrArg (c :: ·)) (congrArg (c :: ·))
      · rintro ⟨text', h, hstands⟩
        obtain ⟨rest, rfl, hrest⟩ := hstands.head hc
        rcases h with rfl | rfl
        · simp only [Re.reads, decide_true, Bool.true_and]
          exact ih.2 ⟨rest, .inl rfl, hrest⟩
        · simp only [cons_append, Re.reads, decide_true, Bool.true_and]
          exact ih.2 ⟨rest, .inr rfl, hrest⟩

theorem ne_of_isAllowed {d : Char} (hc : isAllowed c = true) (hd : isAllowed d = false) :
    c ≠ d := by
  rintro rfl
  rw [hc] at hd
  cases hd

/-- Of the characters that are let through, only `*` is special in a list of special ones. -/
theorem contains_eq_false {special : List Char} (hc : isAllowed c = true) (hstar : c ≠ '*')
    (hspecial : ∀ d ∈ special, d = '*' ∨ isAllowed d = false) : special.contains c = false := by
  rw [contains_eq_mem, decide_eq_false_iff_not]
  intro hmem
  rcases hspecial c hmem with h | h
  · exact hstar h
  · exact ne_of_isAllowed hc h rfl

/-- A character that is let through, other than `*`, is converted to itself. -/
theorem shToAwk1_cons (hc : isAllowed c = true) (hstar : c ≠ '*') :
    shToAwk1 (c :: pattern) = c :: shToAwk1 pattern := by
  have hspecial : shSpecialChar c = false :=
    contains_eq_false hc hstar (forall_iff_forall_mem.1 (by decide))
  have hany : c ≠ '?' := ne_of_isAllowed hc (by decide)
  have hbracket : c ≠ '[' := ne_of_isAllowed hc (by decide)
  rw [shToAwk1, hspecial]
  · rfl
  all_goals simp [*]

/-- The converted characters are read as they are. -/
theorem items_cons (hc : isAllowed c = true) (hstar : c ≠ '*') (regexp : List Char) :
    Re.items (c :: regexp) = (Re.items regexp).map (.char c :: ·) := by
  have hplain : "\\^$.[|()?*+\x7b".toList.contains c = false :=
    contains_eq_false hc hstar (forall_iff_forall_mem.1 (by decide))
  have hend : c ≠ ')' := ne_of_isAllowed hc (by decide)
  have hany : c ≠ '.' := ne_of_isAllowed hc (by decide)
  have hescape : c ≠ '\\' := ne_of_isAllowed hc (by decide)
  rw [Re.items, hplain]
  · rfl
  all_goals simp [*]

/-- No character that is let through has a meaning of its own, but `*`. -/
theorem items_shToAwk1 (h : ∀ c ∈ pattern, isAllowed c = true) :
    Re.items (shToAwk1 pattern) = some (pattern.map item) := by
  induction pattern with
  | nil =>
    rw [shToAwk1]
    rfl
  | cons c pattern ih =>
    rw [forall_mem_cons] at h
    by_cases hstar : c = '*'
    · subst hstar
      rw [shToAwk1, Re.items, ih h.2]
      rfl
    · rw [shToAwk1_cons h.1 hstar, items_cons h.1 hstar, ih h.2, Option.map_some, map_cons,
        item, if_neg hstar]

/-- The labels are compared one by one, and no pattern reaches beyond its label. -/
theorem matchLabels_iff (hrun : Re.Implements run) (labels patterns : List String) :
    matchLabels run labels patterns = true ↔ List.Forall₂ LabelMatches labels patterns := by
  fun_induction matchLabels run labels patterns with
  | case1 => simp
  | case2 => simp
  | case3 => simp
  | case4 dl dLabels pl pLabels hallowed hmatch ih =>
    rw [all_eq_true] at hallowed
    rw [shToAwk, hrun _ _ _ (items_shToAwk1 hallowed), reads_iff] at hmatch
    rw [ih, forall₂_cons]
    exact ⟨fun h => ⟨⟨hallowed, hmatch⟩, h⟩, And.right⟩
  | case5 dl dLabels pl pLabels hallowed hmatch =>
    rw [all_eq_true] at hallowed
    rw [shToAwk, hrun _ _ _ (items_shToAwk1 hallowed), reads_iff] at hmatch
    simp only [Bool.false_eq_true, forall₂_cons, false_iff]
    exact fun h => hmatch h.1.2
  | case6 dl dLabels pl pLabels hallowed =>
    rw [all_eq_true] at hallowed
    simp only [Bool.false_eq_true, forall₂_cons, false_iff]
    exact fun h => hallowed h.1.1

/-- **A certificate names a domain label by label**, with lower-case letters only. -/
theorem matchDomain_iff (hrun : Re.Implements run) (domain pattern : String) :
    matchDomain run domain pattern = true ↔ domain = pattern ∨
    List.Forall₂ LabelMatches (Erlang.split '.' domain) (Erlang.split '.' pattern) := by
  rw [matchDomain, ← matchLabels_iff hrun]
  split
  · next h => simp [h]
  · next h => simp [h]

theorem reads_eq_globMatches (hline : '\n' ∉ text) :
    Re.reads (pattern.map item) text = In.globMatches pattern text := by
  induction pattern generalizing text with
  | nil =>
    cases text with
    | nil => rfl
    | cons c text =>
      have hc : c ≠ '\n' := fun h => hline (h ▸ List.mem_cons_self)
      simp [Re.reads, In.globMatches, hc]
  | cons p pattern ih =>
    by_cases hp : p = '*'
    · subst hp
      show Re.skips (Re.reads (pattern.map item)) text = text.tails.any (In.globMatches pattern)
      induction text with
      | nil => simp [Re.skips, ih]
      | cons c text ihText =>
        have hc : c ≠ '\n' := fun h => hline (h ▸ List.mem_cons_self)
        rw [Re.skips, ih hline, ihText fun h => hline (List.mem_cons_of_mem c h)]
        simp [hc]
    · cases text with
      | nil => simp [item, hp, Re.reads, In.globMatches]
      | cons c text =>
        simp [item, hp, Re.reads, In.globMatches, ih fun h => hline (List.mem_cons_of_mem c h)]

theorem matchLabels_eq (hrun : Re.Implements run) {labels : List String} (patterns : List String)
    (hline : ∀ label ∈ labels, '\n' ∉ label.toList) :
    matchLabels run labels patterns =
    In.matchLabels (labels.map String.toList) (patterns.map String.toList) := by
  induction labels generalizing patterns with
  | nil => cases patterns <;> rfl
  | cons dl dLabels ih =>
    obtain ⟨hlabel, hrest⟩ := List.forall_mem_cons.1 hline
    cases patterns with
    | nil => rfl
    | cons pl pLabels =>
      show _ = (pl.toList.all isAllowed && In.globMatches pl.toList dl.toList &&
        In.matchLabels (dLabels.map String.toList) (pLabels.map String.toList))
      rw [matchLabels, ih pLabels hrest]
      split
      · next hallowed =>
        rw [shToAwk, hrun _ _ _ (items_shToAwk1 (List.all_eq_true.1 hallowed)),
          reads_eq_globMatches hlabel, hallowed]
        cases In.globMatches pl.toList dl.toList <;> rfl
      · next hallowed => rw [Bool.eq_false_iff.2 hallowed, Bool.false_and, Bool.false_and]

theorem subset_intercalate (sep : List Char) {part : List Char} {parts : List (List Char)}
    (hpart : part ∈ parts) : part ⊆ sep.intercalate parts := by
  induction parts with
  | nil => cases hpart
  | cons first parts ih =>
    cases parts with
    | nil => simp_all
    | cons second parts =>
      rw [List.intercalate_cons_cons]
      rcases List.mem_cons.1 hpart with rfl | hpart
      · simp
      · exact List.Subset.trans (ih hpart) (List.subset_append_right _ _)

/-- **The globs of `S2S.In` are exact** for domains without line feed. -/
theorem matchDomain_eq (hrun : Re.Implements run) {domain : String}
    (hline : '\n' ∉ domain.toList) (pattern : String) :
    matchDomain run domain pattern = In.matchDomain domain pattern := by
  have hmap (s : String) : s.toList.splitOn '.' = (Erlang.split '.' s).map String.toList := by
    simp [Erlang.split, List.map_map, Function.comp_def]
  have hlabels : ∀ label ∈ Erlang.split '.' domain, '\n' ∉ label.toList := by
    intro label hlabel hmem
    have hjoin : ['.'].intercalate (domain.toList.splitOn '.') = domain.toList :=
      List.intercalate_splitOn '.'
    rw [← hjoin, hmap] at hline
    exact hline (subset_intercalate _ (List.mem_map_of_mem hlabel) hmem)
  rw [matchDomain, In.matchDomain, matchLabels_eq hrun _ hlabels, ← hmap, ← hmap]
  by_cases heq : domain = pattern <;> simp [heq]

/-- `re:run/3` on the expressions without bracket. -/
def plainRun (subject : List Char) : (regexp : List Char) → Bool
  | '^' :: '(' :: regexp => ((Re.items regexp).map (Re.reads · subject)).getD false
  | _ => false

theorem implements_plainRun : Re.Implements plainRun := by
  intro subject regexp list hlist
  rw [plainRun, hlist]
  rfl

theorem matchDomain_eq_star : matchDomain plainRun "org" "o*" = In.matchDomain "org" "o*" :=
  matchDomain_eq implements_plainRun (by decide) "o*"

/-- Upper-case letters of a pattern are not let through. -/
theorem upper_case_refused : matchDomain plainRun "Org" "O*" = false ∧
    List.Forall₂ (fun label pattern : String =>
        (∀ c ∈ pattern.toList, c.isAlphanum = true ∨ c = '-' ∨ c = '*') ∧
          Stands pattern.toList label.toList)
      (Erlang.split '.' "Org") (Erlang.split '.' "O*") := by
  refine ⟨by decide, ?_⟩
  show List.Forall₂ _ ["Org"] ["O*"]
  refine .cons ⟨forall_iff_forall_mem.1 (by decide),
    .char (by decide) (@Stands.star _ _ ['r', 'g'] ?_ .nil)⟩ .nil
  decide

theorem matchDomain_iff_chat :
    matchDomain plainRun "chat.b.org" "*.b.org" = true ↔ "chat.b.org" = "*.b.org" ∨
    List.Forall₂ LabelMatches (Erlang.split '.' "chat.b.org") (Erlang.split '.' "*.b.org") :=
  matchDomain_iff implements_plainRun "chat.b.org" "*.b.org"

end MongooseIM.S2S.Wildcards
