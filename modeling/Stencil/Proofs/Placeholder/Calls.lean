import Stencil.Proofs.Placeholder.Bars
import Stencil.Proofs.Placeholder.Literals

/-!
# Writing calls

A call is written with a dollar sign, its namespace, a dot, its member, and its arguments between
parentheses, with any blanks around each of them. It is read back whatever commas, parentheses,
bars, double quotes, backslashes and blanks the texts among the arguments hold
(`parse_writtenCall`). A call without arguments may leave out the parentheses (`parse_bareCall`).
-/

namespace Stencil.Placeholder

/-! ## Splitting arguments -/

/-- A text that belongs to one argument as a whole, and leaves no quote open. -/
def Unbroken (cs : List Char) : Prop :=
  ∀ rest, splitArguments none (cs ++ rest) =
    (splitArguments none rest).map fun pieces => cs.foldr Text.extendFirst pieces

theorem foldr_extendFirst (cs piece : List Char) (pieces : List (List Char)) :
    cs.foldr Text.extendFirst (piece :: pieces) = (cs ++ piece) :: pieces := by
  induction cs with
  | nil => rfl
  | cons c cs ih => simp [ih, Text.extendFirst]

theorem Unbroken.append {front back : List Char} (hfront : Unbroken front)
    (hback : Unbroken back) : Unbroken (front ++ back) := by
  intro rest
  rw [List.append_assoc, hfront, hback]
  cases splitArguments none rest <;> simp [Except.map]

/-- A character that separates nothing goes into its argument. -/
theorem splitArguments_cons {quote : Option Char} {c : Char}
    (h : quote ≠ none ∨ (c ≠ ',' ∧ c ≠ '(' ∧ c ≠ ')')) (rest : List Char) :
    splitArguments quote (c :: rest) =
      (splitArguments (quoteAfter quote c) rest).map (Text.extendFirst c) := by
  have hcomma : ¬ (quote = none ∧ c = ',') := by
    rintro ⟨rfl, rfl⟩
    simp at h
  have hparenthesis : ¬ (quote = none ∧ (c = '(' ∨ c = ')')) := by
    rintro ⟨rfl, rfl | rfl⟩ <;> simp at h
  rw [splitArguments, if_neg hcomma, if_neg hparenthesis]

theorem unbroken_of_isPlain {cs : List Char} (h : ∀ c ∈ cs, Literal.isPlain c = true) :
    Unbroken cs := by
  intro rest
  induction cs with
  | nil => cases hrest : splitArguments none rest <;> simp [hrest, Except.map]
  | cons c cs ih =>
    obtain ⟨hquote, hplain⟩ := Literal.isPlain_iff.1 (h c List.mem_cons_self)
    have hnone : quoteAfter none c = none := by simp [quoteAfter, hquote]
    rw [List.cons_append, splitArguments_cons (.inr hplain), hnone,
      ih fun d hd => h d (List.mem_cons_of_mem c hd)]
    cases splitArguments none rest <;> rfl

/-- Inside quotes everything up to the closing quote belongs to the argument. -/
theorem splitArguments_quoted {quote : Char} {cs : List Char} (h : quote ∉ cs)
    (rest : List Char) :
    splitArguments (some quote) (cs ++ quote :: rest) =
      (splitArguments none rest).map fun pieces =>
        (cs ++ [quote]).foldr Text.extendFirst pieces := by
  induction cs with
  | nil =>
    have hclosed : quoteAfter (some quote) quote = none := by simp [quoteAfter]
    rw [List.nil_append, splitArguments_cons (.inl (by simp)), hclosed]
    rfl
  | cons c cs ih =>
    simp only [List.mem_cons, not_or] at h
    have hopen : quoteAfter (some quote) c = some quote := by simp [quoteAfter, Ne.symm h.1]
    rw [List.cons_append, splitArguments_cons (.inl (by simp)), hopen, ih h.2]
    cases splitArguments none rest <;> rfl

theorem unbroken_inQuotes {cs : List Char} (h : '\'' ∉ cs) : Unbroken (Text.inQuotes cs) := by
  intro rest
  have hopen : quoteAfter none '\'' = some '\'' := by simp [quoteAfter, isQuote]
  have htext : Text.inQuotes cs ++ rest = '\'' :: (cs ++ '\'' :: rest) := by
    simp [Text.inQuotes]
  rw [htext, splitArguments_cons (.inr (by decide)), hopen, splitArguments_quoted h]
  cases splitArguments none rest <;> rfl

theorem unbroken_write {v : Value} (h : Literal.IsWritable v) : Unbroken (Literal.write v) := by
  cases hstring : v.string? with
  | none =>
    refine unbroken_of_isPlain fun c hc => ?_
    exact (Literal.isBare_iff.1 (Literal.isBare_of_mem_write h hstring hc)).1
  | some text =>
    cases h with
    | string htext => exact unbroken_inQuotes htext
    | null | bool _ | integer _ => cases hstring

theorem unbroken_of_isBlankText {cs : List Char} (h : Text.isBlankText cs = true) :
    Unbroken cs :=
  unbroken_of_isPlain fun c hc => Literal.isPlain_of_isBlank (List.all_eq_true.1 h c hc)

/-! ## Arguments -/

/-- A written argument: a literal with blanks around it. -/
structure Argument where
  before : List Char
  value : Value
  after : List Char
  before_blank : Text.isBlankText before = true
  writable : Literal.IsWritable value
  after_blank : Text.isBlankText after = true

namespace Argument

/-- The text of an argument. -/
def text (a : Argument) : List Char :=
  a.before ++ Literal.write a.value ++ a.after

theorem unbroken (a : Argument) : Unbroken a.text :=
  ((unbroken_of_isBlankText a.before_blank).append (unbroken_write a.writable)).append
    (unbroken_of_isBlankText a.after_blank)

theorem ofChars_text (a : Argument) : Literal.ofChars a.text = a.value :=
  Literal.ofChars_write a.writable a.before_blank a.after_blank

theorem isBlankText_text (a : Argument) : Text.isBlankText a.text = false := by
  cases hblank : Text.isBlankText a.text with
  | false => rfl
  | true =>
    -- nothing would be left of a blank text, but the literal is
    have htrim : Text.trim a.text = Literal.write a.value := by
      rw [text, Text.trim_pad a.before_blank a.after_blank, Literal.trim_write a.writable]
    rw [Text.trim_of_isBlankText hblank] at htrim
    exact absurd htrim.symm (Literal.write_ne_nil a.writable)

end Argument

/-- Written arguments, with commas between them; without any argument there can be blanks. -/
def argumentsText (gap : List Char) : List Argument → List Char
  | [] => gap
  | a :: rest => [','].intercalate ((a :: rest).map Argument.text)

/-- An argument ends at the comma behind it. -/
theorem Unbroken.splitArguments_comma {cs : List Char} (h : Unbroken cs) (rest : List Char) :
    splitArguments none (cs ++ ',' :: rest) = (splitArguments none rest).map (cs :: ·) := by
  have hcomma : splitArguments none (',' :: rest) = (splitArguments none rest).map ([] :: ·) := by
    simp [splitArguments]
  rw [h, hcomma]
  cases splitArguments none rest <;> simp [Except.map, foldr_extendFirst]

theorem Unbroken.splitArguments_eq {cs : List Char} (h : Unbroken cs) :
    splitArguments none cs = .ok [cs] := by
  have hend := h []
  simpa [splitArguments, Except.map, foldr_extendFirst] using hend

theorem splitArguments_intercalate (a : Argument) (rest : List Argument) :
    splitArguments none ([','].intercalate ((a :: rest).map Argument.text)) =
      .ok ((a :: rest).map Argument.text) := by
  induction rest generalizing a with
  | nil => simpa using a.unbroken.splitArguments_eq
  | cons b rest ih =>
    have hrest := ih b
    simp only [List.map_cons] at hrest ⊢
    rw [List.intercalate_cons_cons, List.append_assoc, List.singleton_append,
      a.unbroken.splitArguments_comma, hrest]
    rfl

theorem readArguments_text (args : List Argument) :
    readArguments (args.map Argument.text) = .ok (args.map Argument.value) := by
  induction args with
  | nil => rfl
  | cons a rest ih =>
    rw [List.map_cons, readArguments, a.isBlankText_text, ih, a.ofChars_text]
    rfl

/-- Written arguments are read back. -/
theorem arguments_argumentsText {gap : List Char} (hgap : Text.isBlankText gap = true)
    (args : List Argument) :
    arguments (argumentsText gap args) = .ok (args.map Argument.value) := by
  cases args with
  | nil =>
    rw [argumentsText, arguments, if_pos hgap]
    rfl
  | cons a rest =>
    have hblank : Text.isBlankText (argumentsText gap (a :: rest)) = false := by
      cases rest with
      | nil => simp [argumentsText, a.isBlankText_text]
      | cons b rest =>
        simp [argumentsText, List.intercalate_cons_cons, Text.isBlankText_append,
          a.isBlankText_text]
    rw [arguments, if_neg (by rw [hblank]; decide), argumentsText, splitArguments_intercalate]
    exact readArguments_text (a :: rest)

/-! ## Calls -/

/-- The characters of namespace names lie between the digits and the letters. -/
theorem toNat_of_isNamespaceChar {c : Char} (h : isNamespaceChar c = true) :
    48 ≤ c.toNat ∧ c.toNat ≤ 122 := by
  have hrange {low high : Char} (hlow : low ≤ c) (hhigh : c ≤ high) :
      low.toNat ≤ c.toNat ∧ c.toNat ≤ high.toNat :=
    ⟨UInt32.le_iff_toNat_le.1 hlow, UInt32.le_iff_toNat_le.1 hhigh⟩
  rcases Bool.or_eq_true_iff.1 h with halphanum | hline
  · rcases Bool.or_eq_true_iff.1 halphanum with halpha | hdigit
    · rcases Bool.or_eq_true_iff.1 halpha with hupper | hlower
      · obtain ⟨hlow, hhigh⟩ := of_decide_eq_true hupper
        have hbounds : 65 ≤ c.toNat ∧ c.toNat ≤ 90 := hrange hlow hhigh
        omega
      · obtain ⟨hlow, hhigh⟩ := Bool.and_eq_true_iff.1 hlower
        have hbounds : 97 ≤ c.toNat ∧ c.toNat ≤ 122 :=
          hrange (of_decide_eq_true hlow) (of_decide_eq_true hhigh)
        omega
    · obtain ⟨hlow, hhigh⟩ := Bool.and_eq_true_iff.1 hdigit
      have hbounds : 48 ≤ c.toNat ∧ c.toNat ≤ 57 :=
        hrange (of_decide_eq_true hlow) (of_decide_eq_true hhigh)
      omega
  · obtain rfl : c = '_' := beq_iff_eq.1 hline
    decide

theorem isBlank_of_isNamespaceChar {c : Char} (h : isNamespaceChar c = true) :
    Text.isBlank c = false := by
  obtain ⟨hlow, hhigh⟩ := toNat_of_isNamespaceChar h
  exact Text.isBlank_of_visible ⟨by omega, by omega⟩

theorem ne_of_isNamespaceChar {c d : Char} (h : isNamespaceChar c = true)
    (hd : isNamespaceChar d = false) : c ≠ d := by
  rintro rfl
  rw [h] at hd
  cases hd

/-- A call is read from its head: a name of a namespace, a dot and a member. -/
theorem call_of_splitCall {cs : List Char} {ns member : String} {args : Option (List Value)}
    (hns : ns ≠ "") (hchars : ∀ c ∈ ns.toList, isNamespaceChar c = true) (hmember : member ≠ "")
    (htrim : Text.trim member.toList = member.toList)
    (hsplit : splitCall cs = .ok (ns.toList ++ '.' :: member.toList, args)) (source : String) :
    Placeholder.call source cs = .ok { ns, member, args, source } := by
  have hdot : '.' ∉ ns.toList := fun hmem => ne_of_isNamespaceChar (hchars _ hmem) (by decide) rfl
  have hname : Text.trim ns.toList = ns.toList := by
    refine Text.trim_eq_self ?_ ?_
    · intro c hc
      exact isBlank_of_isNamespaceChar (hchars c (List.mem_of_mem_head? hc))
    · intro c hc
      exact isBlank_of_isNamespaceChar (hchars c (List.mem_of_mem_getLast? hc))
  have hall : ns.toList.all isNamespaceChar = true := List.all_eq_true.2 hchars
  rw [call, hsplit]
  simp [Text.cutAt_append hdot, hname, htrim, hall, hns, hmember]

/-- A text behind a dollar sign that is split into a head and arguments is read as that call, and
has no default. -/
theorem parse_of_splitCall {cs : List Char} {ns member : String} {args : Option (List Value)}
    (hns : ns ≠ "") (hchars : ∀ c ∈ ns.toList, isNamespaceChar c = true) (hmember : member ≠ "")
    (htrim : Text.trim member.toList = member.toList)
    (hsplit : splitCall cs = .ok (ns.toList ++ '.' :: member.toList, args))
    (htext : Text.trim ('$' :: cs) = '$' :: cs) :
    Placeholder.parse (String.ofList (escapeBars ('$' :: cs))) =
      .ok { expression := .function { ns, member, args, source := String.ofList ('$' :: cs) }
            default := none
            source := String.ofList ('$' :: cs) } := by
  have hexpression : Expression.parse ('$' :: cs) =
      .ok (.function { ns, member, args, source := String.ofList ('$' :: cs) }) := by
    rw [Expression.parse, call_of_splitCall hns hchars hmember htrim hsplit]
  rw [parse_escapeBars (List.cons_ne_nil _ _) htext, hexpression]
  rfl

/-- Neither a namespace nor a member without it has the mark of the parentheses. -/
theorem not_mem_head {ns member : String} {mark : Char}
    (hchars : ∀ c ∈ ns.toList, isNamespaceChar c = true) (hmark : isNamespaceChar mark = false)
    (hdot : mark ≠ '.') (hmember : mark ∉ member.toList) :
    mark ∉ ns.toList ++ '.' :: member.toList := by
  rw [List.mem_append, List.mem_cons]
  rintro (hmem | heq | hmem)
  · exact ne_of_isNamespaceChar (hchars _ hmem) hmark rfl
  · exact hdot heq
  · exact hmember hmem

/-- The arguments of a call stand between the first opening and the last closing parenthesis. -/
theorem splitCall_of_arguments {head inner : List Char} {args : List Value} (hopen : '(' ∉ head)
    (hargs : arguments inner = .ok args) :
    splitCall (head ++ '(' :: inner ++ [')']) = .ok (head, some args) := by
  rw [splitCall, List.append_assoc, List.cons_append, Text.cutAt_append hopen]
  simp [Text.dropEnd?_append, hargs, Except.map]

/-- A written call. -/
structure WrittenCall where
  ns : String
  member : String
  gap : List Char
  args : List Argument
  ns_ne_empty : ns ≠ ""
  ns_chars : ∀ c ∈ ns.toList, isNamespaceChar c = true
  member_ne_empty : member ≠ ""
  member_chars : ∀ c ∈ member.toList, c ≠ '(' ∧ c ≠ ')'
  member_head : ∀ c ∈ member.toList.head?, Text.isBlank c = false
  member_last : ∀ c ∈ member.toList.getLast?, Text.isBlank c = false
  gap_blank : Text.isBlankText gap = true

namespace WrittenCall

/-- What stands before the parentheses. -/
def head (w : WrittenCall) : List Char :=
  w.ns.toList ++ '.' :: w.member.toList

/-- The text of a call. -/
def text (w : WrittenCall) : List Char :=
  '$' :: (w.head ++ '(' :: argumentsText w.gap w.args) ++ [')']

theorem splitCall_text (w : WrittenCall) :
    splitCall (w.head ++ '(' :: argumentsText w.gap w.args ++ [')']) =
      .ok (w.head, some (w.args.map Argument.value)) := by
  -- the parenthesis behind the head is the first one
  have hopen : '(' ∉ w.head :=
    not_mem_head w.ns_chars (by decide) (by decide) fun hmem => (w.member_chars _ hmem).1 rfl
  exact splitCall_of_arguments hopen (arguments_argumentsText w.gap_blank w.args)

theorem call_text (w : WrittenCall) (source : String) :
    Placeholder.call source (w.head ++ '(' :: argumentsText w.gap w.args ++ [')']) =
      .ok { ns := w.ns, member := w.member, args := some (w.args.map Argument.value), source } := by
  have hmember : Text.trim w.member.toList = w.member.toList :=
    Text.trim_eq_self w.member_head w.member_last
  exact call_of_splitCall w.ns_ne_empty w.ns_chars w.member_ne_empty hmember w.splitCall_text source

/-- A written call is read back, and has no default. -/
theorem parse_writtenCall (w : WrittenCall) :
    Placeholder.parse (String.ofList (escapeBars w.text)) =
      .ok { expression := .function
              { ns := w.ns, member := w.member, args := some (w.args.map Argument.value),
                source := String.ofList w.text }
            default := none
            source := String.ofList w.text } := by
  -- the dollar sign and the closing parenthesis are the ends of the text
  have htrim : Text.trim w.text = w.text := Text.trim_of_ends (by decide) (by decide)
  have hexpression : Expression.parse w.text = .ok (.function
      { ns := w.ns, member := w.member, args := some (w.args.map Argument.value),
        source := String.ofList w.text }) := by
    have hcall := call_text w (String.ofList w.text)
    rw [text, List.cons_append] at hcall ⊢
    rw [Expression.parse, hcall]
  rw [parse_escapeBars (by simp [text]) htrim, hexpression]
  rfl

/-- A text with a comma, a bar behind a backslash, a parenthesis, a double quote and blanks. -/
theorem parse_writtenCall_of_marks :
    let values : List Value := [.string " ,\\|)\" ", .number (.integer (-20) (by decide)), .null]
    let source := "$x_1.a|b(\n' ,\\|)\" ' ,-20, null)"
    Placeholder.parse "$x_1.a\\|b(\n' ,\\\\|)\" ' ,-20, null)" =
      .ok { expression := .function { ns := "x_1", member := "a|b", args := some values, source }
            default := none
            source } := by
  intro values source
  let text : Argument :=
    { before := ['\n'], value := .string " ,\\|)\" ", after := [' ']
      before_blank := by decide, writable := .string (by decide), after_blank := by decide }
  let negative : Argument :=
    { before := [], value := .number (.integer (-20) (by decide)), after := []
      before_blank := rfl, writable := .integer (k := -20) (by decide), after_blank := rfl }
  let nothing : Argument :=
    { before := [' '], value := .null, after := []
      before_blank := by decide, writable := .null, after_blank := rfl }
  let w : WrittenCall :=
    { ns := "x_1", member := "a|b", gap := [], args := [text, negative, nothing]
      ns_ne_empty := by decide
      ns_chars := List.all_eq_true.1 (by decide)
      member_ne_empty := by decide
      member_chars := by simp
      member_head := by simp [Text.isBlank]
      member_last := by simp [Text.isBlank]
      gap_blank := rfl }
  have hwritten : String.ofList (escapeBars w.text) =
      "$x_1.a\\|b(\n' ,\\\\|)\" ' ,-20, null)" := by decide
  have hsource : String.ofList w.text = source := by decide
  have hparse := parse_writtenCall w
  rw [hwritten, hsource] at hparse
  exact hparse

end WrittenCall

/-- A call that is written without parentheses. -/
def bareCall (ns member : String) : List Char :=
  '$' :: ns.toList ++ '.' :: member.toList

/-- A call that is written without parentheses is read back, and has no arguments and no
default. -/
theorem parse_bareCall {ns member : String} (hns : ns ≠ "")
    (hchars : ∀ c ∈ ns.toList, isNamespaceChar c = true) (hmember : member ≠ "")
    (htrim : Text.trim member.toList = member.toList)
    (hplain : ∀ c ∈ member.toList, c ≠ '(' ∧ c ≠ ')') :
    Placeholder.parse (String.ofList (escapeBars (bareCall ns member))) =
      .ok { expression := .function
              { ns, member, args := none, source := String.ofList (bareCall ns member) }
            default := none
            source := String.ofList (bareCall ns member) } := by
  have hopen : '(' ∉ ns.toList ++ '.' :: member.toList :=
    not_mem_head hchars (by decide) (by decide) fun hmem => (hplain _ hmem).1 rfl
  have hclose : ')' ∉ ns.toList ++ '.' :: member.toList :=
    not_mem_head hchars (by decide) (by decide) fun hmem => (hplain _ hmem).2 rfl
  have hsplit : splitCall (ns.toList ++ '.' :: member.toList) =
      .ok (ns.toList ++ '.' :: member.toList, none) := by
    rw [splitCall, Text.cutAt_eq_none_iff.2 hopen]
    exact if_neg hclose
  -- the text starts with the dollar sign and ends as the member does
  have hlast : ∀ c ∈ member.toList.getLast?, Text.isBlank c = false := by
    rw [← htrim]
    exact Text.last_trimEnd_not_blank _
  have htext : Text.trim (bareCall ns member) = bareCall ns member := by
    refine Text.trim_eq_self ?_ ?_
    · simp [bareCall, Text.isBlank]
    · have hne : member.toList ≠ [] := by simpa using hmember
      have hend : (bareCall ns member).getLast? = member.toList.getLast? := by
        rw [bareCall, List.append_cons, List.getLast?_append, List.getLast?_eq_some_getLast hne,
          Option.some_or]
      rwa [hend]
  exact parse_of_splitCall hns hchars hmember htrim hsplit htext

/-! ## One argument -/

/-- A call with the text of one argument. -/
def plainCall (ns member : String) (text : List Char) : List Char :=
  '$' :: (ns.toList ++ '.' :: member.toList) ++ '(' :: text ++ [')']

/-- A text without quotes, commas and parentheses that is not blank is one argument. -/
theorem arguments_of_isPlain {text : List Char} (hplain : ∀ c ∈ text, Literal.isPlain c = true)
    (hblank : Text.isBlankText text = false) : arguments text = .ok [Literal.ofChars text] := by
  have hone := (unbroken_of_isPlain hplain).splitArguments_eq
  rw [arguments, if_neg (by rw [hblank]; decide), hone]
  simp only [readArguments]
  rw [if_neg (by rw [hblank]; decide)]
  rfl

/-- A call with the text of one argument is read as the call with the literal that this text is. -/
theorem parse_plainCall {ns member : String} {text : List Char} (hns : ns ≠ "")
    (hchars : ∀ c ∈ ns.toList, isNamespaceChar c = true) (hmember : member ≠ "")
    (htrim : Text.trim member.toList = member.toList) (hopen : '(' ∉ member.toList)
    (hplain : ∀ c ∈ text, Literal.isPlain c = true) (hblank : Text.isBlankText text = false) :
    Placeholder.parse (String.ofList (escapeBars (plainCall ns member text))) =
      .ok { expression := .function
              { ns, member, args := some [Literal.ofChars text]
                source := String.ofList (plainCall ns member text) }
            default := none
            source := String.ofList (plainCall ns member text) } := by
  have hhead : '(' ∉ ns.toList ++ '.' :: member.toList :=
    not_mem_head hchars (by decide) (by decide) hopen
  have hsplit := splitCall_of_arguments hhead (arguments_of_isPlain hplain hblank)
  -- the dollar sign and the closing parenthesis are the ends of the text
  have htext : Text.trim (plainCall ns member text) = plainCall ns member text :=
    Text.trim_of_ends (by decide) (by decide)
  exact parse_of_splitCall hns hchars hmember htrim hsplit htext

end Stencil.Placeholder
