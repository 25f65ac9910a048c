import MongooseIM.Xmpp.Stanza

/-! # Minified addresses

An archive stores the address of the other side relative to that of its owner: what the two have in
common is left out. `jidToOptBinary` has a clause for each thing that may be left out, and
`expandMinifiedJid` tells them apart by the first delimiter. -/

namespace MongooseIM.Mam

open Xmpp List

/-- `jid_to_opt_binary/2` -/
def jidToOptBinary (userJid jid : Jid) : String :=
  if jid.lserver = userJid.lserver ∧ jid.luser = "" ∧ jid.lresource = "" then ":"
  else if jid.lserver = userJid.lserver ∧ jid.luser = userJid.luser ∧ jid.lresource = "" then ""
  else if jid.lserver = userJid.lserver ∧ jid.luser = userJid.luser then "/" ++ jid.lresource
  -- both clients are on the same server
  else if jid.lserver = userJid.lserver ∧ jid.lresource = "" then jid.luser
  else if jid.lserver = userJid.lserver ∧ jid.luser = "" then ":/" ++ jid.lresource
  else if jid.lserver = userJid.lserver then jid.luser ++ "/" ++ jid.lresource
  else if jid.lresource = "" then jid.lserver ++ ":" ++ jid.luser
  else jid.lserver ++ "@" ++ jid.luser ++ "/" ++ jid.lresource

/-- What `binary:match/2` looks for. -/
def isDelimiter (c : Char) : Bool := c = '@' || c = '/' || c = ':'

/-- `binary:split/2` at a slash, when there is one. -/
def splitAtSlash (tail : List Char) : Option (List Char × List Char) :=
  match tail.dropWhile (· ≠ '/') with
  | _ :: rest => some (tail.takeWhile (· ≠ '/'), rest)
  | [] => none

/-- The patterns of `expand_minified_jid/3` with a position, by what is there; `none` is a crash. -/
def expandAfter (thisServer first : String) : List Char → Option String
  | [':'] => some first
  | ':' :: luser => some (String.ofList luser ++ "@" ++ first)
  | '@' :: '/' :: lresource => some (first ++ "/" ++ String.ofList lresource)
  | '@' :: tail =>
    (splitAtSlash tail).map fun parts =>
      String.ofList parts.1 ++ "@" ++ first ++ "/" ++ String.ofList parts.2
  | '/' :: lresource => some (first ++ "@" ++ thisServer ++ "/" ++ String.ofList lresource)
  | _ => none

variable (userJid : Jid)

/-- `expand_minified_jid/3` at a position. -/
def expandMinifiedJidAt (pos : ℕ) (encoded : List Char) : Option String :=
  match encoded with
  | ':' :: '/' :: lresource => some (userJid.lserver ++ "/" ++ String.ofList lresource)
  | [':'] => some userJid.lserver
  | _ => expandAfter userJid.lserver (String.ofList (encoded.take pos)) (encoded.drop pos)

/-- `expand_minified_jid/2`; `none` is a crash. -/
def expandMinifiedJid (optJid : String) : Option String :=
  match optJid.toList with
  | [] => some (userJid.luser ++ "@" ++ userJid.lserver)
  | '/' :: lresource =>
    if userJid.luser = "" then some (userJid.lserver ++ "/" ++ String.ofList lresource)
    else some (userJid.luser ++ "@" ++ userJid.lserver ++ "/" ++ String.ofList lresource)
  | encoded =>
    match encoded.findIdx? isDelimiter with
    | none => some (optJid ++ "@" ++ userJid.lserver)
    | some pos => expandMinifiedJidAt userJid pos encoded

/-- A text without delimiters. -/
def Plain (s : String) : Prop := ∀ c ∈ s.toList, isDelimiter c = false

/-- An address whose local part and domain have no delimiters; the domain of an address is never
empty. -/
structure PlainJid extends Jid where
  luser_plain : Plain luser
  lserver_plain : Plain lserver
  lserver_ne : lserver ≠ ""

variable {s : String}

/-- The first delimiter after a plain text is the one that follows it. -/
theorem findIdx?_plain (hs : Plain s) {c : Char} (hc : isDelimiter c = true)
    (rest : List Char) : (s.toList ++ c :: rest).findIdx? isDelimiter = some s.toList.length := by
  have hnone : s.toList.findIdx? isDelimiter = none := findIdx?_eq_none_iff.2 hs
  rw [findIdx?_append, hnone, findIdx?_cons, hc]
  simp

/-- A plain text that is not empty starts with no delimiter. -/
theorem Plain.exists_cons (hs : Plain s) (hne : s ≠ "") :
    ∃ c cs, s.toList = c :: cs ∧ isDelimiter c = false := by
  cases hlist : s.toList with
  | nil => exact absurd (String.toList_eq_nil_iff.1 hlist) hne
  | cons c cs => exact ⟨c, cs, rfl, hs c (by rw [hlist]; exact mem_cons_self)⟩

/-- A rest is empty or starts with a delimiter. -/
def IsRest (rest : List Char) : Prop := ∀ c ∈ rest.head?, isDelimiter c = true

theorem jid_ext {a b : Jid} (hu : a.luser = b.luser) (hs : a.lserver = b.lserver)
    (hr : a.lresource = b.lresource) : a = b := by
  cases a
  cases b
  simp only at hu hs hr
  rw [hu, hs, hr]

/-- **The text before the first delimiter is determined.** -/
theorem append_inj_of_plain {s t : String} (hs : Plain s) (ht : Plain t) {x y : List Char}
    (hx : IsRest x) (hy : IsRest y) (h : s.toList ++ x = t.toList ++ y) : s = t ∧ x = y := by
  have htake {s : String} (hs : Plain s) {x : List Char} (hx : IsRest x) :
      (s.toList ++ x).takeWhile (fun c => !isDelimiter c) = s.toList := by
    rw [takeWhile_append_of_pos fun c hc => by rw [hs c hc]; rfl]
    cases x with
    | nil => simp
    | cons c cs =>
      have hc : isDelimiter c = true := hx c rfl
      simp [hc]
  have hst : s.toList = t.toList := by
    rw [← htake hs hx, h, htake ht hy]
  rw [hst] at h
  exact ⟨String.toList_inj.1 hst, append_cancel_left h⟩

/-- A text that starts with no delimiter is decoded by the position of the first one. -/
theorem expandMinifiedJid_cons {userJid : Jid} {optJid : String} {d : Char} {ds : List Char}
    (h : optJid.toList = d :: ds) (hd : isDelimiter d = false) :
    expandMinifiedJid userJid optJid = match (d :: ds).findIdx? isDelimiter with
    | none => some (optJid ++ "@" ++ userJid.lserver)
    | some pos => expandAfter userJid.lserver (String.ofList ((d :: ds).take pos))
        ((d :: ds).drop pos) := by
  have hslash : d ≠ '/' := by
    rintro rfl
    cases hd
  have hcolon : d ≠ ':' := by
    rintro rfl
    cases hd
  rw [expandMinifiedJid]
  split
  · next heq =>
    rw [h] at heq
    cases heq
  · next heq =>
    rw [h] at heq
    exact absurd (cons.inj heq).1 hslash
  · rw [h]
    split
    · rfl
    · rw [expandMinifiedJidAt.eq_def]
      split
      · next heq => exact absurd (cons.inj heq).1 hcolon
      · next heq => exact absurd (cons.inj heq).1 hcolon
      · rfl

/-- What comes after a plain text that is not empty decides how it is decoded. -/
theorem expandMinifiedJid_of_toList {s optJid : String} (hs : Plain s)
    (hne : s ≠ "") {c : Char} (hc : isDelimiter c = true) {rest : List Char}
    (h : optJid.toList = s.toList ++ c :: rest) :
    expandMinifiedJid userJid optJid = expandAfter userJid.lserver s (c :: rest) := by
  obtain ⟨d, ds, hlist, hd⟩ := hs.exists_cons hne
  have hcons : optJid.toList = d :: (ds ++ c :: rest) := by rw [h, hlist, cons_append]
  have happend : d :: (ds ++ c :: rest) = s.toList ++ c :: rest := by
    rw [hlist, cons_append]
  rw [expandMinifiedJid_cons hcons hd, happend, findIdx?_plain hs hc rest]
  simp only [take_left, drop_left, String.ofList_toList]

/-- A plain text alone is a user of the same server. -/
theorem expandMinifiedJid_plain {userJid : Jid} {s : String} (hs : Plain s) (hne : s ≠ "") :
    expandMinifiedJid userJid s = some (s ++ "@" ++ userJid.lserver) := by
  obtain ⟨d, ds, hlist, hd⟩ := hs.exists_cons hne
  rw [expandMinifiedJid_cons hlist hd, ← hlist, findIdx?_eq_none_iff.2 hs]

theorem splitAtSlash_plain (hs : Plain s) (rest : List Char) :
    splitAtSlash (s.toList ++ '/' :: rest) = some (s.toList, rest) := by
  have hmem : ∀ c ∈ s.toList, decide (c ≠ '/') = true := by
    intro c hc
    have := hs c hc
    simp only [ne_eq, decide_eq_true_eq]
    rintro rfl
    cases this
  rw [splitAtSlash, dropWhile_append_of_pos hmem, takeWhile_append_of_pos hmem]
  simp

variable (userJid : Jid)

/-- The two texts that name the server of the owner. -/
theorem expandMinifiedJid_colon : expandMinifiedJid userJid ":" = some userJid.lserver := rfl

variable (lresource : String)

theorem expandMinifiedJid_colonSlash :
    expandMinifiedJid userJid (":/" ++ lresource) = some (userJid.lserver ++ "/" ++ lresource) := by
  have hlist : (":/" ++ lresource).toList = ':' :: '/' :: lresource.toList := by simp
  rw [expandMinifiedJid, hlist]
  show some (userJid.lserver ++ "/" ++ String.ofList lresource.toList) = _
  rw [String.ofList_toList]

theorem expandMinifiedJid_slash : expandMinifiedJid userJid ("/" ++ lresource) =
    if userJid.luser = "" then some (userJid.lserver ++ "/" ++ lresource)
    else some (userJid.luser ++ "@" ++ userJid.lserver ++ "/" ++ lresource) := by
  have hlist : ("/" ++ lresource).toList = '/' :: lresource.toList := by simp
  simp only [expandMinifiedJid, hlist, String.ofList_toList]

/-- What comes after an at sign is the local part, up to the first slash. -/
theorem expandAfter_at {thisServer first luser : String} (hluser : Plain luser)
    (hne : luser ≠ "") (lresource : List Char) :
    expandAfter thisServer first ('@' :: (luser.toList ++ '/' :: lresource)) =
    some (luser ++ "@" ++ first ++ "/" ++ String.ofList lresource) := by
  have hsplit := splitAtSlash_plain hluser lresource
  obtain ⟨d, ds, hlist, hd⟩ := hluser.exists_cons hne
  have hslash : d ≠ '/' := by
    rintro rfl
    cases hd
  rw [hlist, cons_append] at hsplit ⊢
  rw [expandAfter.eq_def]
  split
  · next heq => exact absurd (cons.inj heq).1 (by decide)
  · next heq => exact absurd (cons.inj heq).1 (by decide)
  · next heq => exact absurd (cons.inj (cons.inj heq).2).1 hslash
  · next heq =>
    rw [← (cons.inj heq).2, hsplit, Option.map_some, ← hlist, String.ofList_toList]
  · next heq => exact absurd (cons.inj heq).1 (by decide)
  · next hat _ => exact absurd rfl (hat _)

variable (thisServer first : String)

/-- Without a local part there is a slash right after the at sign. -/
theorem expandAfter_atSlash (lresource : List Char) :
    expandAfter thisServer first ('@' :: '/' :: lresource) =
    some (first ++ "/" ++ String.ofList lresource) := rfl

theorem expandAfter_colon (luser : List Char) : expandAfter thisServer first (':' :: luser) =
    if luser = [] then some first else some (String.ofList luser ++ "@" ++ first) := by
  cases luser with
  | nil => rfl
  | cons d ds => rfl

section

variable (userJid : Jid) (jid : PlainJid)

theorem expandMinifiedJid_sameServer (hsame : jid.lserver = userJid.lserver) :
    expandMinifiedJid userJid (jidToOptBinary userJid jid.toJid) = some jid.toBinary := by
  have hplain := jid.luser_plain
  simp only [jidToOptBinary, Jid.toBinary, hsame, true_and]
  by_cases howner : jid.luser = userJid.luser
  · by_cases hbare : jid.lresource = ""
    · by_cases hempty : jid.luser = ""
      · simp [hempty, hbare, expandMinifiedJid_colon]
      · have hne : userJid.luser ≠ "" := howner ▸ hempty
        simp [howner, hne, hbare, expandMinifiedJid]
    · have hslash := expandMinifiedJid_slash userJid jid.lresource
      by_cases hempty : userJid.luser = ""
      · simp [howner, hempty, hbare, hslash, String.append_assoc]
      · simp [howner, hempty, hbare, hslash, String.append_assoc]
  · by_cases hbare : jid.lresource = ""
    · by_cases hempty : jid.luser = ""
      · simp [hempty, hbare, expandMinifiedJid_colon]
      · simp [howner, hempty, hbare, expandMinifiedJid_plain hplain hempty]
    · by_cases hempty : jid.luser = ""
      · have hne : ("" : String) ≠ userJid.luser := hempty ▸ howner
        simp [hempty, hne, hbare, expandMinifiedJid_colonSlash, String.append_assoc]
      · -- the resource may hold any delimiter: the first one is the slash before it
        have hlist : (jid.luser ++ "/" ++ jid.lresource).toList =
            jid.luser.toList ++ '/' :: jid.lresource.toList := by simp
        have hafter := expandMinifiedJid_of_toList userJid hplain hempty rfl hlist
        simp only [howner, hempty, hbare, and_false, if_false, if_true, hafter, expandAfter]
        simp [String.append_assoc]

theorem expandMinifiedJid_otherServer (hother : jid.lserver ≠ userJid.lserver) :
    expandMinifiedJid userJid (jidToOptBinary userJid jid.toJid) = some jid.toBinary := by
  have hplain := jid.lserver_plain
  simp only [jidToOptBinary, Jid.toBinary, hother, false_and, if_false]
  by_cases hbare : jid.lresource = ""
  · have hlist : (jid.lserver ++ ":" ++ jid.luser).toList =
        jid.lserver.toList ++ ':' :: jid.luser.toList := by simp
    have hafter := expandMinifiedJid_of_toList userJid hplain jid.lserver_ne rfl hlist
    rw [if_pos hbare, hafter, expandAfter_colon]
    by_cases hempty : jid.luser = ""
    · simp [hempty, hbare]
    · simp [hempty, hbare]
  · have hlist : (jid.lserver ++ "@" ++ jid.luser ++ "/" ++ jid.lresource).toList =
        jid.lserver.toList ++ '@' :: (jid.luser.toList ++ '/' :: jid.lresource.toList) := by
      simp
    have hafter := expandMinifiedJid_of_toList userJid hplain jid.lserver_ne rfl hlist
    rw [if_neg hbare, hafter]
    by_cases hempty : jid.luser = ""
    · have hat := expandAfter_atSlash userJid.lserver jid.lserver jid.lresource.toList
      simp [hempty, hbare, hat, String.append_assoc]
    · simp [hempty, hbare, expandAfter_at jid.luser_plain hempty, String.append_assoc]

/-- **What was encoded is decoded** to the canonical text of the address. -/
theorem expandMinifiedJid_jidToOptBinary :
    expandMinifiedJid userJid (jidToOptBinary userJid jid.toJid) = some jid.toBinary := by
  by_cases hsame : jid.lserver = userJid.lserver
  · exact expandMinifiedJid_sameServer userJid jid hsame
  · exact expandMinifiedJid_otherServer userJid jid hsame

end

/-- The part of a canonical text that comes before its resource. -/
def resourceText : List Char :=
  if lresource = "" then [] else '/' :: lresource.toList

theorem isRest_resourceText : IsRest (resourceText lresource) := by
  unfold resourceText
  split
  · rintro c ⟨⟩
  · rintro c ⟨⟩
    rfl

theorem resourceText_inj {r₁ r₂ : String} (h : resourceText r₁ = resourceText r₂) : r₁ = r₂ := by
  unfold resourceText at h
  split at h <;> split at h
  · next h₁ h₂ => rw [h₁, h₂]
  · cases h
  · cases h
  · exact String.toList_inj.1 (cons.inj h).2

/-- The canonical text up to its first delimiter, and what follows it. -/
theorem toList_toBinary (jid : Jid) : jid.toBinary.toList =
    if jid.luser = "" then jid.lserver.toList ++ resourceText jid.lresource
    else jid.luser.toList ++ '@' :: (jid.lserver.toList ++ resourceText jid.lresource) := by
  unfold Jid.toBinary resourceText
  split <;> split <;> simp

/-- The canonical text of a plain address has all of it. -/
theorem toBinary_inj {r₁ r₂ : PlainJid} (h : r₁.toBinary = r₂.toBinary) : r₁.toJid = r₂.toJid := by
  have hlist : r₁.toBinary.toList = r₂.toBinary.toList := by rw [h]
  rw [toList_toBinary, toList_toBinary] at hlist
  have hrest₁ := isRest_resourceText r₁.lresource
  have hrest₂ := isRest_resourceText r₂.lresource
  have hat {x : List Char} : IsRest ('@' :: x) := by
    rintro c ⟨⟩
    rfl
  -- a text whose first delimiter is the at sign has a local part, another has none
  have hno_at {r : String} {x : List Char} : resourceText r ≠ '@' :: x := by
    unfold resourceText
    split
    · exact fun heq => by cases heq
    · exact fun heq => absurd (cons.inj heq).1 (by decide)
  split at hlist <;> split at hlist
  · next hu₁ hu₂ =>
    have ⟨hs, hr⟩ := append_inj_of_plain r₁.lserver_plain r₂.lserver_plain hrest₁ hrest₂ hlist
    exact jid_ext (hu₁.trans hu₂.symm) hs (resourceText_inj hr)
  · have ⟨_, hr⟩ := append_inj_of_plain r₁.lserver_plain r₂.luser_plain hrest₁ hat hlist
    exact absurd hr hno_at
  · have ⟨_, hr⟩ := append_inj_of_plain r₁.luser_plain r₂.lserver_plain hat hrest₂ hlist
    exact absurd hr.symm hno_at
  · have ⟨hu, hx⟩ := append_inj_of_plain r₁.luser_plain r₂.luser_plain hat hat hlist
    have ⟨hs, hr⟩ := append_inj_of_plain r₁.lserver_plain r₂.lserver_plain hrest₁ hrest₂
      (cons.inj hx).2
    exact jid_ext hu hs (resourceText_inj hr)

/-- **The minified address decodes to the canonical one**, so it belongs to one address only. -/
theorem minifiedJid_roundTrip : (∀ (owner : Jid) (remote : PlainJid),
    expandMinifiedJid owner (jidToOptBinary owner remote.toJid) = some remote.toBinary) ∧
    (∀ (owner : Jid) (r₁ r₂ : PlainJid),
    jidToOptBinary owner r₁.toJid = jidToOptBinary owner r₂.toJid → r₁.toJid = r₂.toJid) := by
  constructor
  · exact expandMinifiedJid_jidToOptBinary
  · intro owner r₁ r₂ h
    have h₁ := expandMinifiedJid_jidToOptBinary owner r₁
    rw [h, expandMinifiedJid_jidToOptBinary owner r₂] at h₁
    exact toBinary_inj (Option.some.inj h₁).symm

end MongooseIM.Mam
