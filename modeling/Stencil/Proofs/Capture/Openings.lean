import Stencil.Proofs.Capture.Paths

/-!
# What a capture line looks like

In front of its equals sign a capture has a comment sign, the word `@capture`, perhaps a scope, and
a name, with blanks between them. A line of this form is a capture exactly if a path stands behind
the equals sign, and no other lines are captures (`ofChars?_eq_some_iff`). A name may be the word of
a scope or start with one: what follows the word decides.
-/

namespace Stencil.Capture

/-- The signs that start a comment. -/
inductive Sign where
  | hash
  | slashes

/-- A comment sign as it is written. -/
def Sign.text : Sign → List Char
  | .hash => ['#']
  | .slashes => ['/', '/']

/-- What stands in front of the equals sign of a capture. The scope, if there is one, is written
with the blanks behind it. -/
structure Opening where
  indent : List Char
  sign : Sign
  gap : List Char
  space : List Char
  scope : Option (Scope × List Char)
  name : String
  after : List Char
  indent_blank : Text.isBlankText indent = true
  gap_blank : Text.isBlankText gap = true
  space_blank : Text.isBlankText space = true
  space_ne_nil : space ≠ []
  scope_blank : ∀ written ∈ scope, Text.isBlankText written.2 = true ∧ written.2 ≠ []
  identifier : IsIdentifier name
  after_blank : Text.isBlankText after = true

namespace Opening

/-- The scope and the name as they are written. -/
def target (o : Opening) : List Char :=
  (o.scope.elim [] fun written => written.1.name.toList ++ written.2) ++ (o.name.toList ++ o.after)

/-- The text in front of the equals sign. -/
def text (o : Opening) : List Char :=
  o.indent ++ (o.sign.text ++ (o.gap ++ ("@capture".toList ++ (o.space ++ o.target))))

theorem target_append_of_none {o : Opening} (h : o.scope = none) (rest : List Char) :
    o.target ++ rest = o.name.toList ++ (o.after ++ rest) := by
  simp [target, h]

theorem target_append_of_some {o : Opening} {scope : Scope} {blanks : List Char}
    (h : o.scope = some (scope, blanks)) (rest : List Char) :
    o.target ++ rest = scope.name.toList ++ (blanks ++ (o.name.toList ++ (o.after ++ rest))) := by
  simp [target, h]

/-- The capture of a path. Without a scope it is local. -/
def capture (o : Opening) (path : List Char) : Capture :=
  { name := o.name
    scope := o.scope.elim .locals Prod.fst
    path := String.ofList path }

end Opening

/-! ## Names -/

section Names

variable {name : String} {after behind path rest : List Char}

theorem isNameChar_of_isNameStart {c : Char} (h : isNameStart c = true) :
    isNameChar c = true := by
  simp only [isNameStart, Bool.or_eq_true] at h
  simp only [isNameChar, Char.isAlphanum, Bool.or_eq_true]
  rcases h with halpha | hline
  · exact Or.inl (Or.inl halpha)
  · exact Or.inr hline

/-- A name is read up to the first character that cannot be part of it. -/
theorem takeName?_append (hname : IsIdentifier name)
    (hrest : ∀ c ∈ rest.head?, isNameChar c = false) :
    takeName? (name.toList ++ rest) = some (name.toList, rest) := by
  obtain ⟨c, hc, hstart⟩ := hname.head
  obtain ⟨cs, hcons⟩ := List.head?_eq_some_iff.1 hc
  have htake : (name.toList ++ rest).takeWhile isNameChar = name.toList := by
    rw [List.takeWhile_append_of_pos hname.chars]
    cases rest with
    | nil => simp
    | cons d rest => simp [hrest d (by simp)]
  have hdrop : (name.toList ++ rest).dropWhile isNameChar = rest := by
    rw [List.dropWhile_append_of_pos hname.chars]
    cases rest with
    | nil => simp
    | cons d rest => simp [hrest d (by simp)]
  rw [hcons] at htake hdrop ⊢
  rw [List.cons_append] at htake hdrop ⊢
  rw [takeName?, if_pos hstart, htake, hdrop]

theorem takeName?_eq_some {cs taken : List Char} (h : takeName? cs = some (taken, rest)) :
    IsIdentifier (String.ofList taken) ∧ cs = taken ++ rest := by
  unfold takeName? at h
  split at h
  · cases h
  · rename_i c tail
    split at h
    · rename_i hstart
      obtain ⟨rfl, rfl⟩ := Prod.mk.inj (Option.some.inj h)
      have hchar := isNameChar_of_isNameStart hstart
      refine ⟨⟨⟨c, by simp [hchar], hstart⟩, ?_⟩, List.takeWhile_append_dropWhile.symm⟩
      rw [String.toList_ofList]
      exact fun d hd => List.mem_takeWhile_imp hd
    · cases h

/-- What follows a name in a capture starts with a blank or is the equals sign. -/
theorem isNameChar_of_head_after (hafter : Text.isBlankText after = true) :
    ∀ c ∈ (after ++ '=' :: behind).head?, isNameChar c = false := by
  intro c hc
  rw [Bool.eq_false_iff]
  intro hchar
  cases after with
  | nil =>
    obtain rfl : '=' = c := by simpa using hc
    exact absurd hchar (by decide)
  | cons d after =>
    obtain rfl : d = c := by simpa using hc
    have hblank := List.all_eq_true.1 hafter d List.mem_cons_self
    rw [Placeholder.isBlank_of_isNamespaceChar hchar] at hblank
    cases hblank

theorem assignment?_append (scope : Scope) (hname : IsIdentifier name)
    (hafter : Text.isBlankText after = true) (hpath : pathText? behind = some path) :
    assignment? scope (name.toList ++ (after ++ '=' :: behind)) =
      some { name, scope, path := String.ofList path } := by
  have htrim : Text.trimStart (after ++ '=' :: behind) = '=' :: behind :=
    Text.trimStart_pad hafter (by simp [Text.isBlank])
  rw [assignment?, takeName?_append hname (isNameChar_of_head_after hafter), Option.bind_some]
  simp only [htrim, hpath, Option.map_some, String.ofList_toList]

/-- What is read as an assignment is a name, an equals sign and a text that holds a path. -/
theorem assignment?_eq_some {scope : Scope} {cs : List Char} {c : Capture}
    (h : assignment? scope cs = some c) :
    ∃ after behind path, IsIdentifier c.name ∧ Text.isBlankText after = true ∧
      cs = c.name.toList ++ (after ++ '=' :: behind) ∧ pathText? behind = some path ∧
      c = { name := c.name, scope, path := String.ofList path } := by
  obtain ⟨⟨taken, rest⟩, htaken, hread⟩ := Option.bind_eq_some_iff.1 h
  obtain ⟨hname, htext⟩ := takeName?_eq_some htaken
  obtain ⟨after, hafter, hrest⟩ := Text.exists_append_trimStart rest
  simp only at hread
  split at hread
  · rename_i behind hbehind
    obtain ⟨path, hpath, rfl⟩ := Option.map_eq_some_iff.1 hread
    rw [hbehind] at hrest
    exact ⟨after, behind, path, hname, hafter, by simp [htext, hrest], hpath, rfl⟩
  · cases hread

end Names

/-! ## Scopes -/

section Scopes

variable {name : String} {after behind blanks rest : List Char}

theorem skipBlanks?_append (hblanks : Text.isBlankText blanks = true) (hne : blanks ≠ [])
    (hrest : ∀ c ∈ rest.head?, Text.isBlank c = false) :
    skipBlanks? (blanks ++ rest) = some rest := by
  obtain ⟨c, cs, rfl⟩ := List.exists_cons_of_ne_nil hne
  rw [Text.isBlankText, List.all_cons, Bool.and_eq_true] at hblanks
  rw [List.cons_append, skipBlanks?, if_pos hblanks.1, Text.trimStart_pad hblanks.2 hrest]

theorem skipBlanks?_of_visible {c : Char} (h : Text.isBlank c = false) (rest : List Char) :
    skipBlanks? (c :: rest) = none := by
  simp [skipBlanks?, h]

theorem skipBlanks?_eq_some {cs : List Char} (h : skipBlanks? cs = some rest) :
    ∃ blanks, Text.isBlankText blanks = true ∧ blanks ≠ [] ∧ cs = blanks ++ rest := by
  unfold skipBlanks? at h
  split at h
  · cases h
  · rename_i c tail
    split at h
    · rename_i hc
      obtain ⟨blanks, hblanks, htail⟩ := Text.exists_append_trimStart tail
      obtain rfl := Option.some.inj h
      refine ⟨c :: blanks, ?_, List.cons_ne_nil c blanks, ?_⟩
      · simpa [Text.isBlankText, hc] using hblanks
      · rw [List.cons_append, ← htail]
    · cases h

/-- The characters of the word of a scope could be those of a name. -/
theorem isNameChar_of_mem_scope (scope : Scope) : ∀ c ∈ scope.name.toList, isNameChar c = true := by
  cases scope <;> exact List.all_eq_true.1 (by decide)

/-- A word that is taken off the text of a name ends inside the name, because no character of it can
stand behind the name. -/
theorem exists_of_dropStart?_name {word : List Char} (hword : ∀ c ∈ word, isNameChar c = true)
    (hafter : Text.isBlankText after = true)
    (h : Text.dropStart? word (name.toList ++ (after ++ '=' :: behind)) = some rest) :
    ∃ more, name.toList = word ++ more ∧ rest = more ++ (after ++ '=' :: behind) := by
  have hsplit := Text.dropStart?_eq_some h
  rcases List.append_eq_append_iff.1 hsplit with ⟨extra, hextra, hbehind⟩ | ⟨more, hmore, hbehind⟩
  · cases extra with
    | nil => exact ⟨[], by simpa using hextra.symm, by simpa using hbehind.symm⟩
    | cons c extra =>
      have hc : isNameChar c = true := hword c (by simp [hextra])
      have hhead : (after ++ '=' :: behind).head? = some c := by rw [hbehind]; rfl
      rw [isNameChar_of_head_after hafter c hhead] at hc
      cases hc
  · exact ⟨more, hmore, hbehind⟩

/-- The word of a scope that a name starts with is no scope, because no blank follows it, or an
equals sign does. -/
theorem scopedAssignment?_of_name (scope : Scope) (hname : IsIdentifier name)
    (hafter : Text.isBlankText after = true) :
    scopedAssignment? scope (name.toList ++ (after ++ '=' :: behind)) = none := by
  rw [scopedAssignment?]
  cases hdrop : Text.dropStart? scope.name.toList (name.toList ++ (after ++ '=' :: behind)) with
  | none => rfl
  | some rest =>
    obtain ⟨more, hmore, rfl⟩ :=
      exists_of_dropStart?_name (isNameChar_of_mem_scope scope) hafter hdrop
    rw [Option.bind_some]
    cases more with
    | cons c more =>
      have hc : Text.isBlank c = false := hname.not_blank (by simp [hmore])
      rw [List.cons_append, skipBlanks?_of_visible hc]
      rfl
    | nil =>
      cases after with
      | nil => rfl
      | cons a after =>
        rw [List.nil_append,
          skipBlanks?_append hafter (List.cons_ne_nil a after) (by simp [Text.isBlank])]
        rfl

theorem scopedAssignment?_append (scope : Scope) (hblanks : Text.isBlankText blanks = true)
    (hne : blanks ≠ []) (hrest : ∀ c ∈ rest.head?, Text.isBlank c = false) :
    scopedAssignment? scope (scope.name.toList ++ (blanks ++ rest)) = assignment? scope rest := by
  rw [scopedAssignment?, Text.dropStart?_append, Option.bind_some,
    skipBlanks?_append hblanks hne hrest, Option.bind_some]

theorem scopedAssignment?_eq_some {scope : Scope} {cs : List Char} {c : Capture}
    (h : scopedAssignment? scope cs = some c) :
    ∃ blanks rest, Text.isBlankText blanks = true ∧ blanks ≠ [] ∧
      cs = scope.name.toList ++ (blanks ++ rest) ∧ assignment? scope rest = some c := by
  obtain ⟨rest, hrest, hassign⟩ := Option.bind_eq_some_iff.1 h
  obtain ⟨behind, hbehind, hskip⟩ := Option.bind_eq_some_iff.1 hrest
  obtain ⟨blanks, hblanks, hne, rfl⟩ := skipBlanks?_eq_some hskip
  exact ⟨blanks, rest, hblanks, hne, Text.dropStart?_eq_some hbehind, hassign⟩

end Scopes

/-! ## Lines -/

section Lines

variable {name : String} {behind path rest : List Char}

theorem head_not_blank (hname : IsIdentifier name) (rest : List Char) :
    ∀ c ∈ (name.toList ++ rest).head?, Text.isBlank c = false := by
  obtain ⟨c, cs, hcons⟩ := List.exists_cons_of_ne_nil hname.toList_ne_nil
  have hc : Text.isBlank c = false := hname.not_blank (by simp [hcons])
  simp [hcons, hc]

/-- A written scope is taken for the scope, and a name without one for a local variable. -/
theorem declaration?_target (o : Opening) (hpath : pathText? behind = some path) :
    declaration? (o.target ++ '=' :: behind) = some (o.capture path) := by
  have hassign (scope : Scope) := assignment?_append scope o.identifier o.after_blank hpath
  cases hscope : o.scope with
  | none =>
    have hnone (scope : Scope) :
        scopedAssignment? scope (o.name.toList ++ (o.after ++ '=' :: behind)) = none :=
      scopedAssignment?_of_name scope o.identifier o.after_blank
    rw [Opening.target_append_of_none hscope, declaration?, hnone, hnone, hassign]
    simp [Opening.capture, hscope]
  | some written =>
    obtain ⟨scope, blanks⟩ := written
    obtain ⟨hblanks, hne⟩ := o.scope_blank (scope, blanks) hscope
    have hscoped := (scopedAssignment?_append scope hblanks hne
      (head_not_blank o.identifier (o.after ++ '=' :: behind))).trans (hassign scope)
    rw [Opening.target_append_of_some hscope, declaration?]
    cases scope with
    | globals =>
      rw [hscoped]
      simp [Opening.capture, hscope]
    | locals =>
      -- the word of the other scope starts with another letter
      have hother (cs : List Char) :
          scopedAssignment? .globals (Scope.locals.name.toList ++ cs) = none := by
        simp [scopedAssignment?, Text.dropStart?, Scope.name]
      rw [hother, hscoped]
      simp [Opening.capture, hscope]

theorem declaration?_eq_some {cs : List Char} {c : Capture} (h : declaration? cs = some c) :
    ∃ scope : Option (Scope × List Char), ∃ rest,
      (∀ written ∈ scope, Text.isBlankText written.2 = true ∧ written.2 ≠ []) ∧
      cs = (scope.elim [] fun written => written.1.name.toList ++ written.2) ++ rest ∧
      assignment? (scope.elim .locals Prod.fst) rest = some c := by
  have hscoped {scope : Scope} (hread : scopedAssignment? scope cs = some c) :
      ∃ scope : Option (Scope × List Char), ∃ rest,
        (∀ written ∈ scope, Text.isBlankText written.2 = true ∧ written.2 ≠ []) ∧
        cs = (scope.elim [] fun written => written.1.name.toList ++ written.2) ++ rest ∧
        assignment? (scope.elim .locals Prod.fst) rest = some c := by
    obtain ⟨blanks, rest, hblanks, hne, rfl, hassign⟩ := scopedAssignment?_eq_some hread
    exact ⟨some (scope, blanks), rest, by simpa using ⟨hblanks, hne⟩, by simp, hassign⟩
  rw [declaration?, Option.or_eq_some_iff, Option.or_eq_some_iff] at h
  rcases h with (hglobals | ⟨-, hlocals⟩) | ⟨-, hassign⟩
  · exact hscoped hglobals
  · exact hscoped hlocals
  · exact ⟨none, cs, by simp, by simp, hassign⟩

/-- Takes a comment sign off. -/
theorem drop_sign (sign : Sign) (rest : List Char) :
    (Text.dropStart? ['#'] (sign.text ++ rest)).or
      (Text.dropStart? ['/', '/'] (sign.text ++ rest)) = some rest := by
  cases sign <;> simp [Text.dropStart?, Sign.text]

theorem exists_sign {cs : List Char}
    (h : (Text.dropStart? ['#'] cs).or (Text.dropStart? ['/', '/'] cs) = some rest) :
    ∃ sign : Sign, cs = sign.text ++ rest := by
  rw [Option.or_eq_some_iff] at h
  rcases h with hhash | ⟨-, hslashes⟩
  · exact ⟨.hash, Text.dropStart?_eq_some hhash⟩
  · exact ⟨.slashes, Text.dropStart?_eq_some hslashes⟩

theorem ofChars?_text (o : Opening) (hpath : pathText? behind = some path) :
    ofChars? (o.text ++ '=' :: behind) = some (o.capture path) := by
  have hsign (cs : List Char) : ∀ c ∈ (o.sign.text ++ cs).head?, Text.isBlank c = false := by
    cases o.sign <;> simp [Sign.text, Text.isBlank]
  have hword (cs : List Char) :
      ∀ c ∈ ("@capture".toList ++ cs).head?, Text.isBlank c = false := by
    simp [Text.isBlank]
  have htarget : ∀ c ∈ (o.target ++ '=' :: behind).head?, Text.isBlank c = false := by
    cases hscope : o.scope with
    | none =>
      rw [Opening.target_append_of_none hscope]
      exact head_not_blank o.identifier _
    | some written =>
      obtain ⟨scope, blanks⟩ := written
      rw [Opening.target_append_of_some hscope]
      cases scope <;> simp [Scope.name, Text.isBlank]
  simp only [Opening.text, List.append_assoc, ofChars?]
  rw [Text.trimStart_pad o.indent_blank (hsign _), drop_sign, Option.bind_some,
    Text.trimStart_pad o.gap_blank (hword _), Text.dropStart?_append, Option.bind_some,
    skipBlanks?_append o.space_blank o.space_ne_nil htarget, Option.bind_some,
    declaration?_target o hpath]

/-- The captures are the lines that start as an opening says and hold a path behind the equals
sign. -/
theorem ofChars?_eq_some_iff {line : List Char} {c : Capture} :
    ofChars? line = some c ↔
      ∃ (o : Opening) (behind path : List Char), line = o.text ++ '=' :: behind ∧
        pathText? behind = some path ∧ c = o.capture path := by
  constructor
  · intro h
    obtain ⟨indent, hindent, hline⟩ := Text.exists_append_trimStart line
    obtain ⟨comment, hcomment, h⟩ := Option.bind_eq_some_iff.1 h
    obtain ⟨sign, hsign⟩ := exists_sign hcomment
    obtain ⟨gap, hgap, hword⟩ := Text.exists_append_trimStart comment
    obtain ⟨spaced, hspaced, hdeclaration⟩ := Option.bind_eq_some_iff.1 h
    obtain ⟨marked, hmarked, hskip⟩ := Option.bind_eq_some_iff.1 hspaced
    obtain ⟨space, hspace, hne, rfl⟩ := skipBlanks?_eq_some hskip
    obtain ⟨scope, rest, hscope, rfl, hassign⟩ := declaration?_eq_some hdeclaration
    obtain ⟨after, behind, path, hname, hafter, rfl, hpath, hc⟩ := assignment?_eq_some hassign
    let o : Opening :=
      { indent, sign, gap, space, scope, name := c.name, after
        indent_blank := hindent, gap_blank := hgap, space_blank := hspace, space_ne_nil := hne
        scope_blank := hscope, identifier := hname, after_blank := hafter }
    refine ⟨o, behind, path, ?_, hpath, hc⟩
    rw [hline, hsign, hword, Text.dropStart?_eq_some hmarked]
    simp [o, Opening.text, Opening.target]
  · rintro ⟨o, behind, path, rfl, hpath, rfl⟩
    exact ofChars?_text o hpath

end Lines

end Stencil.Capture
