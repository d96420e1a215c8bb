import RequestRouter.Proofs.Declaration.Names
import RequestRouter.Text.Segments

/-!
# Names joined by separators

No name has a colon in it, so a text that joins names can be told apart into these names again
(`RequestRouter.segments_joined`). Two texts of this sort are the same only if their names are,
and one goes on from the other behind a separator exactly if its names go on from those of the
other (`RequestRouter.joined_prefix_iff`).
-/

namespace RequestRouter

open Derives (joined)

namespace Text

theorem segments_ne_nil (s : List Char) : segments s ≠ [] := by
  fun_cases segments s <;> exact List.cons_ne_nil _ _

/-- A text without colons is one segment. -/
theorem segments_of_notMem {s : List Char} (h : ':' ∉ s) : segments s = [s] := by
  induction s with
  | nil => rfl
  | cons c rest ih =>
    obtain ⟨hc, hrest⟩ := not_or.1 (mt List.mem_cons.2 h)
    rw [segments, ih hrest]
    exact fun tail hcolon => absurd hcolon (Ne.symm hc)

/-- A text without colons in front of a separator is the first segment. -/
theorem segments_append {s : List Char} (h : ':' ∉ s) (rest : List Char) :
    segments (s ++ ':' :: ':' :: rest) = s :: segments rest := by
  induction s with
  | nil => rfl
  | cons c front ih =>
    obtain ⟨hc, hfront⟩ := not_or.1 (mt List.mem_cons.2 h)
    rw [List.cons_append, segments, ih hfront]
    exact fun tail hcolon => absurd hcolon (Ne.symm hc)

end Text

theorem joined_singleton (name : String) : joined [name] = name := String.intercalate_singleton

theorem joined_append {front back : List String} (hfront : front ≠ []) (hback : back ≠ []) :
    joined (front ++ back) = joined front ++ Text.separator ++ joined back :=
  String.intercalate_append_of_ne_nil hfront hback

theorem toList_joined_cons (name : String) {names : List String} (h : names ≠ []) :
    (joined (name :: names)).toList = name.toList ++ ':' :: ':' :: (joined names).toList := by
  rw [joined, String.intercalate_cons_of_ne_nil h, String.toList_append, String.toList_append,
    List.append_assoc]
  rfl

/-- No name in the list has a colon in it. -/
def NoColons (names : List String) : Prop := ∀ name ∈ names, ':' ∉ name.toList

theorem noColons_of_isName {names : List String} (h : ∀ name ∈ names, IsName name) :
    NoColons names :=
  fun name hmem => (h name hmem).notMem rfl

section

variable {names others : List String}

theorem joined_ne_empty (hne : names ≠ []) (h : ∀ name ∈ names, IsName name) :
    joined names ≠ "" := by
  obtain ⟨name, later, rfl⟩ := List.exists_cons_of_ne_nil hne
  have hname : name.toList ≠ [] :=
    mt String.toList_eq_nil_iff.1 (h name List.mem_cons_self).ne_empty
  intro hempty
  by_cases hnil : later = []
  · rw [hnil, joined_singleton] at hempty
    exact hname (String.toList_eq_nil_iff.2 hempty)
  · have hlist := toList_joined_cons name hnil
    rw [hempty] at hlist
    exact hname (List.append_eq_nil_iff.1 hlist.symm).1

/-- Names in a package are the names of the package and these. -/
theorem qualify_joined (h : ∀ name ∈ names, IsName name) (hne : others ≠ []) :
    Text.qualify (joined names) (joined others) = joined (names ++ others) := by
  by_cases hnil : names = []
  · rw [hnil]
    rfl
  · have hempty : (joined names).isEmpty = false := by
      rw [String.isEmpty_eq_false_iff]
      exact joined_ne_empty hnil h
    rw [Text.qualify, hempty, joined_append hnil hne]
    rfl

/-- Names in front of a separator are told apart. -/
theorem segments_joined_append (hne : names ≠ []) (h : NoColons names) (rest : List Char) :
    Text.segments ((joined names).toList ++ ':' :: ':' :: rest) =
      names.map String.toList ++ Text.segments rest := by
  induction names with
  | nil => exact absurd rfl hne
  | cons name later ih =>
    obtain ⟨hname, hlater⟩ := List.forall_mem_cons.1 h
    by_cases hnil : later = []
    · rw [hnil, joined_singleton]
      exact Text.segments_append hname rest
    · rw [toList_joined_cons name hnil, List.append_assoc]
      exact (Text.segments_append hname _).trans (congrArg _ (ih hnil hlater))

/-- **Joined names are told apart**. -/
theorem segments_joined (hne : names ≠ []) (h : NoColons names) :
    Text.segments (joined names).toList = names.map String.toList := by
  induction names with
  | nil => exact absurd rfl hne
  | cons name later ih =>
    obtain ⟨hname, hlater⟩ := List.forall_mem_cons.1 h
    by_cases hnil : later = []
    · rw [hnil, joined_singleton]
      exact Text.segments_of_notMem hname
    · rw [toList_joined_cons name hnil, Text.segments_append hname, ih hnil hlater]
      rfl

theorem map_toList_inj : names.map String.toList = others.map String.toList ↔ names = others :=
  List.map_inj_right fun _ _ => String.toList_injective

theorem joined_inj (hne : names ≠ []) (h : NoColons names) (hne' : others ≠ [])
    (h' : NoColons others) : joined names = joined others ↔ names = others := by
  refine ⟨fun hjoined => map_toList_inj.1 ?_, congrArg joined⟩
  rw [← segments_joined hne h, ← segments_joined hne' h', hjoined]

/-- **What goes on behind a separator** goes on with names. -/
theorem joined_prefix_iff (hne : names ≠ []) (h : NoColons names) (hne' : others ≠ [])
    (h' : NoColons others) :
    (joined names ++ Text.separator).toList <+: (joined others).toList ↔
      ∃ later ≠ [], others = names ++ later := by
  rw [String.toList_append]
  constructor
  · rintro ⟨rest, hrest⟩
    have hsegments := segments_joined hne' h'
    rw [← hrest, List.append_assoc] at hsegments
    obtain ⟨front, later, rfl, hfront, hlater⟩ := List.map_eq_append_iff.1
      (hsegments.symm.trans (segments_joined_append hne h rest))
    refine ⟨later, ?_, congrArg (· ++ later) (map_toList_inj.1 hfront)⟩
    rintro rfl
    exact Text.segments_ne_nil rest hlater.symm
  · rintro ⟨later, hlater, rfl⟩
    rw [joined_append hne hlater, String.toList_append, String.toList_append]
    exact List.prefix_append _ _

end

end RequestRouter
