import RequestRouter.Proofs.Declaration.Arguments
import RequestRouter.Proofs.Router.Declared

/-!
# Generated types, read as declared ones

In generated source a type whose values may be absent is an `Option` of them. Such a type can also
be declared, and so the text of a type in generated source (`RequestRouter.TypeRef.emitted`) may be
read again where a declaration has a type. What is read is not the type itself, but the same type
with `Option` written out wherever it had a question mark (`RequestRouter.TypeRef.explicit`). Main
statement: `RequestRouter.SourceFile.parse_emitted`.

The text of a type is cut into tokens that spell it wherever it stands, as long as no name goes on
behind it (`RequestRouter.TypeRef.IsTypeText`). The step to a type from its arguments is then the
same for an `Option` and for arguments that were written. Closing brackets are never taken together,
so any number of them may stand side by side.
-/

namespace RequestRouter

open Derives

namespace TypeRef

/-! ### Types with `Option` written out -/

/-- The type as the only argument of `Option`, if its values may be absent. -/
def inOption (nullable : Bool) (inner : TypeRef) : TypeRef :=
  if nullable then ⟨"Option", [inner], false⟩ else inner

mutual

/-- The type with an `Option` for every question mark, at any depth. -/
def explicit : TypeRef → TypeRef
  | ⟨path, args, nullable⟩ => inOption nullable ⟨path, explicitArgs args, false⟩

/-- The types with an `Option` for every question mark, at any depth. -/
def explicitArgs : List TypeRef → List TypeRef
  | [] => []
  | arg :: rest => explicit arg :: explicitArgs rest

end

theorem explicitArgs_eq_map (args : List TypeRef) : explicitArgs args = args.map explicit := by
  induction args with
  | nil => rfl
  | cons arg rest ih => rw [explicitArgs, ih, List.map_cons]

/-- Generated source has an `Option` for every question mark anyway. -/
theorem emitted_explicit (type : TypeRef) : type.explicit.emitted = type.emitted := by
  induction type using TypeRef.induction with
  | written path args nullable ih =>
    have hargs : (args.map explicit).map emitted = args.map emitted := by
      rw [List.map_map]
      exact List.map_congr_left ih
    have hpresent : emitted ⟨path, args.map explicit, false⟩ = applied path (args.map emitted) := by
      rw [emitted, emittedArgs_eq_map, hargs]
      rfl
    rw [explicit, emitted, explicitArgs_eq_map, emittedArgs_eq_map, inOption, optional]
    split
    · rw [emitted, emittedArgs, emittedArgs, hpresent]
      rfl
    · exact hpresent

/-! ### Texts that spell a type -/

/-- The type is spelled by the text, in front of what does not go on with a name. -/
def IsTypeText (text : String) (type : TypeRef) : Prop :=
  IsSpelled Written (isNamePart · = false) text type

theorem isTypeText_path {path : String} (h : IsQualified path) :
    IsTypeText path ⟨path, [], false⟩ := by
  intro before behind hbehind
  obtain ⟨names, hne, hnames, rfl⟩ := h
  obtain ⟨ts, hcuts, hpath⟩ := isSpelled_joined hne hnames before behind hbehind
  have hwritten : Written (ts ++ []) ⟨joined names, [], false⟩ := .plain hpath .never
  rw [List.append_nil] at hwritten
  exact ⟨ts, hcuts, hwritten⟩

/-- Behind a path, arguments between angle brackets. -/
theorem isTypeText_applied {path : String} {texts : List String} {args : List TypeRef}
    (hpath : IsQualified path) (hargs : List.Forall₂ IsTypeText texts args) (hne : args ≠ []) :
    IsTypeText (path ++ "<" ++ ", ".intercalate texts ++ ">") ⟨path, args, false⟩ := by
  intro before behind _
  obtain ⟨names, hnonempty, hnames, rfl⟩ := hpath
  have hbracket : ∀ c ∈ (">".toList ++ behind).head?, isNamePart c = false := by
    rintro _ ⟨⟩
    rfl
  obtain ⟨ts, hfront, hpath⟩ := isSpelled_joined hnonempty hnames before
    ("<".toList ++ ((", ".intercalate texts).toList ++ ">".toList) ++ behind)
    (by rintro _ ⟨⟩; rfl)
  obtain ⟨us, hcuts, hus⟩ := IsSpelled.commas hargs hne rfl
    (before ++ (joined names).toList ++ "<".toList) _ hbracket
  have hopening : Cuts (before ++ (joined names).toList) "<".toList _
      ((", ".intercalate texts).toList ++ ">".toList ++ behind) :=
    .symbol rfl (by decide) (by decide)
  have hclosing : Cuts (before ++ (joined names).toList ++ "<".toList ++
      (", ".intercalate texts).toList) ">".toList _ behind := .symbol rfl (by decide) (by decide)
  -- The cuts of the path, the two brackets and the arguments, one behind the other.
  have hlist : (joined names ++ "<" ++ ", ".intercalate texts ++ ">").toList =
      (joined names).toList ++ ("<".toList ++ ((", ".intercalate texts).toList ++ ">".toList)) := by
    simp only [String.toList_append, List.append_assoc]
  rw [hlist]
  exact ⟨_, hfront.append (hopening.append (Cuts.append hcuts hclosing)),
    .applied hpath rfl hus rfl .never⟩

/-- **A generated type spells the type** with `Option` written out. -/
theorem isTypeText_emitted (type : TypeRef) (h : type.HasPaths) :
    IsTypeText type.emitted type.explicit := by
  induction type using TypeRef.induction with
  | written path args nullable ih =>
    rw [HasPaths, havePaths_iff] at h
    obtain ⟨hpath, hargs⟩ := h
    have htexts : List.Forall₂ IsTypeText (args.map emitted) (args.map explicit) :=
      List.forall₂_map_left_iff.2 (List.forall₂_map_right_iff.2
        (List.forall₂_same.2 fun arg harg => ih arg harg (hargs arg harg)))
    -- Without its question mark, the type is written as its path and its arguments.
    have hpresent :
        IsTypeText (applied path (args.map emitted)) ⟨path, args.map explicit, false⟩ := by
      rw [applied, List.isEmpty_map]
      cases args with
      | nil => exact isTypeText_path hpath.isQualified
      | cons arg rest => exact isTypeText_applied hpath.isQualified htexts (List.cons_ne_nil _ _)
    have hoption : IsQualified "Option" :=
      ⟨["Option"], List.cons_ne_nil _ _, by decide, (joined_singleton _).symm⟩
    rw [explicit, emitted, explicitArgs_eq_map, emittedArgs_eq_map, inOption, optional]
    split
    · have hinside := isTypeText_applied hoption (.cons hpresent .nil) (List.cons_ne_nil _ _)
      rwa [String.intercalate_singleton] at hinside
    · exact hpresent

end TypeRef

/-! ### Texts with a property -/

/-- A class with a property of the written type. -/
def propertyText (type : String) : String := "class C \x7b f: " ++ type ++ "; \x7d"

/-- The tokens in front of the type. -/
def propertyHead : List Token :=
  [⟨"class", ⟨1, 1⟩⟩, ⟨"C", ⟨1, 7⟩⟩, ⟨"\x7b", ⟨1, 9⟩⟩, ⟨"f", ⟨1, 11⟩⟩, ⟨":", ⟨1, 12⟩⟩]

/-- The tokens behind the type, but the empty one. -/
def propertyTail (position : Position) : List Token :=
  [⟨";", position⟩, ⟨"\x7d", ⟨position.line, position.column + 2⟩⟩]

theorem cuts_propertyHead (behind : List Char) :
    Cuts [] "class C \x7b f: ".toList propertyHead behind := by
  have hspace (front back : List Char) : Cuts front " ".toList [] back := .blank rfl
  have hclass : Cuts [] "class".toList [⟨"class", ⟨1, 1⟩⟩]
      (" ".toList ++ ("C".toList ++ (" ".toList ++ ("\x7b".toList ++ (" ".toList ++
        ("f".toList ++ (":".toList ++ " ".toList)))))) ++ behind) :=
    .name (by decide) (by rintro _ ⟨⟩; rfl)
  have hname : Cuts "class ".toList "C".toList [⟨"C", ⟨1, 7⟩⟩]
      (" ".toList ++ ("\x7b".toList ++ (" ".toList ++
        ("f".toList ++ (":".toList ++ " ".toList)))) ++ behind) :=
    .name (by decide) (by rintro _ ⟨⟩; rfl)
  have hopening : Cuts "class C ".toList "\x7b".toList [⟨"\x7b", ⟨1, 9⟩⟩]
      (" ".toList ++ ("f".toList ++ (":".toList ++ " ".toList)) ++ behind) :=
    .symbol rfl (by decide) (by decide)
  have hproperty : Cuts "class C \x7b ".toList "f".toList [⟨"f", ⟨1, 11⟩⟩]
      (":".toList ++ " ".toList ++ behind) :=
    .name (by decide) (by rintro _ ⟨⟩; rfl)
  have hcolon : Cuts "class C \x7b f".toList ":".toList [⟨":", ⟨1, 12⟩⟩] (" ".toList ++ behind) :=
    .colon (by rintro _ ⟨⟩; decide)
  exact hclass.append ((hspace _ _).append (hname.append ((hspace _ _).append
    (hopening.append ((hspace _ _).append (hproperty.append (hcolon.append (hspace _ _))))))))

theorem tokensAt_propertyTail (position : Position) :
    tokensAt position "; \x7d".toList =
      .ok (propertyTail position ++ [⟨"", ⟨position.line, position.column + 3⟩⟩]) := by
  rcases position with ⟨line, column⟩
  cbv

theorem file_property {ts : List Token} {type : TypeRef} (h : Written ts type)
    (position : Position) :
    File (propertyHead ++ (ts ++ propertyTail position)) ⟨none, [],
      [⟨"C", "", [], ⟨1, 7⟩, .classType, [], [], [⟨"f", ⟨1, 11⟩, type⟩]⟩]⟩ := by
  have hname : Token.isIdentifier ⟨"f", ⟨1, 11⟩⟩ := (by decide : IsName "f")
  have hclass : Token.isIdentifier ⟨"C", ⟨1, 7⟩⟩ := (by decide : IsName "C")
  have hmember : Derives.Member (⟨"f", ⟨1, 11⟩⟩ :: ⟨":", ⟨1, 12⟩⟩ :: (ts ++ [⟨";", position⟩]))
      (.field ⟨"f", ⟨1, 11⟩, type⟩) := .field .nil hname (by decide) rfl h rfl
  have hbody : Body (⟨"\x7b", ⟨1, 9⟩⟩ :: (⟨"f", ⟨1, 11⟩⟩ :: ⟨":", ⟨1, 12⟩⟩ ::
      (ts ++ [⟨";", position⟩]) ++ [] ++ [⟨"\x7d", ⟨position.line, position.column + 2⟩⟩]))
      [.field ⟨"f", ⟨1, 11⟩, type⟩] := .members rfl (.cons hmember .nil) rfl
  have hword : Token.text ⟨"class", ⟨1, 1⟩⟩ = keyword .classType := rfl
  have hdeclared : Declared "" [] _ _ := .intro .nil hword hclass hbody
  have hfile : File _ ⟨none, [], [⟨"C", "", [], ⟨1, 7⟩, .classType, [], [],
      [⟨"f", ⟨1, 11⟩, type⟩]⟩]⟩ := .intro .none .nil (.cons hdeclared .nil)
  simpa [propertyHead, propertyTail] using hfile

namespace SourceFile

theorem parse_propertyText {type : TypeRef} (h : type.HasPaths) :
    parse (propertyText type.emitted) = .ok ⟨none, [],
      [⟨"C", "", [], ⟨1, 7⟩, .classType, [], [], [⟨"f", ⟨1, 11⟩, type.explicit⟩]⟩]⟩ := by
  obtain ⟨ts, htype, hts⟩ :=
    type.isTypeText_emitted h "class C \x7b f: ".toList "; \x7d".toList (by rintro _ ⟨⟩; rfl)
  have hcuts := (cuts_propertyHead _).append htype
  rw [Cuts, List.nil_append, tokensAt_propertyTail, ← String.toList_append,
    ← String.toList_append] at hcuts
  have htokens : tokens (propertyText type.emitted) = _ := hcuts
  rw [Except.map, ← List.append_assoc, List.append_assoc propertyHead] at htokens
  rw [parse, htokens]
  exact ofTokens_of_file (endsOnce_tokensAt htokens) (file_property hts _)

/-- **Generated types keep the declared structure.** If the names of a type are paths, then its text
in generated source is read as the type of a property, and the type that is read is the written one
with an `Option` for every question mark, at any depth. So two such types have the same text exactly
if they are the same with `Option` written out. -/
theorem parse_emitted :
    (∀ type : TypeRef, type.HasPaths → parse (propertyText type.emitted) = .ok ⟨none, [],
      [⟨"C", "", [], ⟨1, 7⟩, .classType, [], [], [⟨"f", ⟨1, 11⟩, type.explicit⟩]⟩]⟩) ∧
    ∀ type other : TypeRef, type.HasPaths → other.HasPaths →
      (type.emitted = other.emitted ↔ type.explicit = other.explicit) := by
  refine ⟨fun type h => parse_propertyText h, fun type other h h' => ⟨fun heq => ?_, fun heq => ?_⟩⟩
  · have hread := parse_propertyText h
    rw [heq, parse_propertyText h'] at hread
    simpa using hread.symm
  · rw [← type.emitted_explicit, heq, other.emitted_explicit]

/-- A list of pairs that may all be absent, once with a question mark for each pair, and once with
`Option` instead. -/
theorem parse_emitted_pairs :
    let pair (nullable : Bool) : TypeRef :=
      ⟨"Pair", [⟨"app::T", [], true⟩, ⟨"U", [], false⟩], nullable⟩
    let marked : TypeRef := ⟨"Vec", [pair true], true⟩
    let mixed : TypeRef := ⟨"Vec", [⟨"Option", [pair false], false⟩], true⟩
    parse "class C \x7b f: Option<Vec<Option<Pair<Option<app::T>, U>>>>; \x7d" = .ok ⟨none, [],
        [⟨"C", "", [], ⟨1, 7⟩, .classType, [], [], [⟨"f", ⟨1, 11⟩, ⟨"Option", [⟨"Vec", [⟨"Option",
          [⟨"Pair", [⟨"Option", [⟨"app::T", [], false⟩], false⟩, ⟨"U", [], false⟩], false⟩],
            false⟩], false⟩], false⟩⟩]⟩]⟩ ∧
      marked ≠ mixed ∧ marked.emitted = mixed.emitted := by
  intro pair marked mixed
  have hvec : IsPath "Vec" := .name (by decide)
  have hpair : IsPath "Pair" := .name (by decide)
  have hoption : IsPath "Option" := .name (by decide)
  have hname : IsPath "app::T" := IsQualified.isPath ⟨["app", "T"], nofun, by decide, rfl⟩
  have hother : IsPath "U" := .name (by decide)
  have hmarked : marked.HasPaths := by
    simp [marked, pair, TypeRef.HasPaths, TypeRef.HavePaths, hvec, hpair, hname, hother]
  have hmixed : mixed.HasPaths := by
    simp [mixed, pair, TypeRef.HasPaths, TypeRef.HavePaths, hvec, hoption, hpair, hname, hother]
  obtain ⟨hread, hsame⟩ := parse_emitted
  refine ⟨hread marked hmarked, ?_, (hsame marked mixed hmarked hmixed).2 rfl⟩
  simp [marked, mixed, pair]

end SourceFile

end RequestRouter
