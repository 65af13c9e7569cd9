import Stencil.Proofs.Path.Rules

/-!
# What paths are read into

The reader of a path keeps its marks out of the segments: a name holds no dot and no bracket, and an
index holds no closing bracket, whatever blanks and quotes stand around it (`Reads.isKey`). The
first segment is a name (`Reads.plain`). There is no other rule: every list of segments that keeps
to this one is read from some text (`exists_parse_eq_ok_iff`).
-/

namespace Stencil.Path

variable {place : Place} {cs current : List Char} {keys : List String}

/-- What the reader of a path keeps out of the segment that it is reading. -/
def Place.IsClean : Place → Prop
  | .name current => ∀ c ∈ current, c ≠ '.' ∧ c ≠ '[' ∧ c ≠ ']'
  | .index inner => ']' ∉ inner
  | .behindIndex => True

theorem isClean_name_concat {c : Char} (h : (Place.name current).IsClean) (hdot : c ≠ '.')
    (hopen : c ≠ '[') (hclose : c ≠ ']') : (Place.name (current ++ [c])).IsClean := by
  intro d hd
  rcases List.mem_append.1 hd with hin | hlast
  · exact h d hin
  · rw [List.mem_singleton.1 hlast]
    exact ⟨hdot, hopen, hclose⟩

theorem isKey_ofList (hne : cs ≠ []) (hclose : ']' ∉ cs) : IsKey (String.ofList cs) where
  ne_empty := by simpa [← String.toList_inj] using hne
  no_bracket := by simpa using hclose

theorem isKey_of_isClean (hne : current ≠ []) (h : (Place.name current).IsClean) :
    IsKey (String.ofList current) :=
  isKey_ofList hne fun hmem => (h _ hmem).2.2 rfl

/-- The segments of a path are not empty and hold no closing bracket. -/
theorem Reads.isKey (h : Reads place cs keys) (hplace : place.IsClean) :
    ∀ key ∈ keys, IsKey key := by
  -- a mark ends the segment that is being read, and every other character leaves the place clean
  induction h with
  | nothing | lastIndex => simp
  | lastName hcurrent => simpa using isKey_of_isClean hcurrent hplace
  | dotBehindName hcurrent _ _ ih | openBehindName hcurrent _ ih =>
    have hkeys := ih (by simp [Place.IsClean])
    exact List.forall_mem_cons.2 ⟨isKey_of_isClean hcurrent hplace, hkeys⟩
  | nameChar hdot hopen hclose _ ih => exact ih (isClean_name_concat hplace hdot hopen hclose)
  | @closeIndex inner rest back hsegment _ ih =>
    have hclose : ']' ∉ Text.unquote (Text.trim inner) := fun hmem =>
      hplace ((Text.trim_infix inner).subset ((Text.unquote_infix _).subset hmem))
    exact List.forall_mem_cons.2 ⟨isKey_ofList hsegment hclose, ih trivial⟩
  | @indexChar c inner rest keys hclose _ ih =>
    have hinner : ']' ∉ inner := hplace
    have hlonger : ']' ∉ inner ++ [c] := by simp [hinner, Ne.symm hclose]
    exact ih hlonger
  | dotBehindIndex _ _ ih | openBehindIndex _ ih => exact ih (by simp [Place.IsClean])

/-- The segment that begins with a name is that name. -/
theorem Reads.plain (h : Reads (.name current) cs keys)
    (hcurrent : (Place.name current).IsClean) :
    ∀ name ∈ keys.head?, ∀ c ∈ name.toList, c ≠ '.' ∧ c ≠ '[' ∧ c ≠ ']' := by
  generalize hplace : Place.name current = place at h
  induction h generalizing current with
  | nothing => simp
  | lastName | dotBehindName | openBehindName =>
    cases hplace
    simpa [Place.IsClean] using hcurrent
  | nameChar hdot hopen hclose _ ih =>
    cases hplace
    exact ih (isClean_name_concat hcurrent hdot hopen hclose) rfl
  | closeIndex | indexChar | lastIndex | dotBehindIndex | openBehindIndex => cases hplace

/-- A list of segments is what some text is read into if and only if it is not empty, no segment is
empty or holds a closing bracket, and the first one holds no dot and no opening bracket. -/
theorem exists_parse_eq_ok_iff :
    (∃ text, parse text = .ok keys) ↔
      keys ≠ [] ∧ (∀ key ∈ keys, key ≠ "" ∧ ']' ∉ key.toList) ∧
        ∀ name ∈ keys.head?, '.' ∉ name.toList ∧ '[' ∉ name.toList := by
  constructor
  · rintro ⟨text, hparse⟩
    have hne : keys ≠ [] := by
      rintro rfl
      exact parse_ne_ok_nil text hparse
    have hreads := reads_of_segments (parse_eq_ok_iff.1 hparse)
    have hclean : (Place.name []).IsClean := by simp [Place.IsClean]
    refine ⟨hne, fun key hkey => ?_, fun name hname => ?_⟩
    · have hiskey := hreads.isKey hclean key hkey
      exact ⟨hiskey.ne_empty, hiskey.no_bracket⟩
    · have hplain := hreads.plain hclean name hname
      exact ⟨fun hdot => (hplain _ hdot).1 rfl, fun hopen => (hplain _ hopen).2.1 rfl⟩
  · rintro ⟨hne, hkeys, hhead⟩
    cases keys with
    | nil => exact absurd rfl hne
    | cons name rest =>
      -- the further segments are written in quotes and brackets, which suit all of them
      rcases List.forall_mem_cons.1 hkeys with ⟨⟨hname, hclose⟩, hrest⟩
      rcases hhead name rfl with ⟨hdot, hopen⟩
      have hplain : ∀ c ∈ name.toList, c ≠ '.' ∧ c ≠ '[' ∧ c ≠ ']' := by
        intro c hc
        refine ⟨?_, ?_, ?_⟩ <;> rintro rfl
        · exact hdot hc
        · exact hopen hc
        · exact hclose hc
      refine ⟨String.ofList (write name rest), ?_⟩
      rw [parse_eq_ok_iff, String.toList_ofList]
      exact segments_write hname hplain fun key hkey => ⟨(hrest key hkey).1, (hrest key hkey).2⟩

/-! ## Paths without segments -/

theorem scan_ne_emptyPath (place : Place) (cs : List Char) :
    scan place cs ≠ .error .emptyPath := by
  fun_induction scan place cs with
  | case4 _ _ _ _ ih | case6 _ _ _ _ ih => rwa [Ne, map_eq_error_iff]
  | case11 _ _ _ _ ih => rwa [Ne, map_eq_error_iff]
  | case8 _ _ _ _ _ _ ih | case12 _ _ _ _ ih | case15 _ _ ih | case16 _ _ ih => exact ih
  | case1 | case2 | case3 | case5 | case7 | case9 | case10 | case13 | case14 | case17 | case18 =>
    simp

/-- Only the empty text is refused for want of segments. -/
theorem segments_eq_emptyPath_iff : segments cs = .error .emptyPath ↔ cs = [] := by
  constructor
  · intro h
    by_contra hne
    rw [segments_eq_scan hne] at h
    exact scan_ne_emptyPath _ _ h
  · rintro rfl
    rfl

end Stencil.Path
