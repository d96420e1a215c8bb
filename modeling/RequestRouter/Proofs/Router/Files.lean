import RequestRouter.Proofs.Router.Syntax

/-!
# Generated files

The items of a generated file: attributes and imports, the trait with the signatures of the
routes, the type, and the implementation with their methods (`RequestRouter.Router.itemsOf`). The
main statement is `RequestRouter.Router.read_emit`: the source of a router whose names are names is
read as exactly these items. The comment at its top takes up its line and no more, for there is no
end of a line in a name.
-/

namespace RequestRouter

open Rust

namespace Route

variable {route : Route} {destination : ClassName}

/-- The method with its body. -/
def methodOf (route : Route) (destination : ClassName) : Rust.Method :=
  ⟨route.syntaxOf, (route.blockOf destination).pieces⟩

theorem balanced_pieces_call {call : Call} : Brackets.ofBody.Balanced call.pieces :=
  Brackets.balanced_of_isPlain (by simp [Call.pieces, Brackets.IsPlain, Brackets.ofBody])

theorem balanced_pieces_statement (statement : Statement) :
    Brackets.ofBody.Balanced statement.pieces := by
  cases statement with
  | create mutable name context destination =>
    refine Brackets.balanced_of_isPlain ?_
    cases mutable <;>
      simp [Statement.pieces, Statement.creation, Brackets.IsPlain, Brackets.ofBody]
  | plain call => exact balanced_pieces_call
  | guarded bound scrutinee call =>
    have hfront : Brackets.ofBody.Balanced [.word "if", .word "let", .word "Some", .symbol '(',
        .word bound, .symbol ')', .symbol '=', .word scrutinee] :=
      Brackets.balanced_of_isPlain (by simp [Brackets.IsPlain, Brackets.ofBody])
    exact hfront.append (balanced_pieces_call.inside.enclosed (by decide) (by decide))

theorem balanced_pieces_block {block : Block} : Brackets.ofBody.Balanced block.pieces := by
  refine (Brackets.Balanced.flatMap fun s _ => balanced_pieces_statement s).append ?_
  exact Brackets.balanced_of_isPlain (by simp [Brackets.IsPlain, Brackets.ofBody])

theorem isClear_methodOf (h : route.HasNames) : (route.methodOf destination).IsClear :=
  ⟨isClear_syntaxOf h, balanced_pieces_block⟩

/-- The lines of a method are its pieces. -/
theorem writes_implementation (h : route.HasNames) :
    Writes (route.implementation destination) (route.methodOf destination).pieces := by
  have hclose : Scans "    \x7d" [.symbol '\x7d'] := scans_of_run rfl
  have hbody : Writes (route.body destination) (route.blockOf destination).pieces := writes_body h
  have hall := ((writes_signature h scans_openBrace rfl).append hbody).append hclose.writes
  exact hall.of_eq (by simp [methodOf, Rust.Method.pieces])

end Route

/-! ### Files -/

namespace Router

variable {router : Router}

/-- What an attribute that allows `lint` says. -/
def allowance (lint : String) : List Piece :=
  [.word "allow", .symbol '(', .word lint, .symbol ')']

/-- The items of an import. -/
def importItems (imported : String) : List Item :=
  [.mark (allowance "unused_imports"), .use (piecesOf (importPath imported))]

/-- The import of what generated source needs. -/
def prelude : List Piece :=
  [.word "intention", .symbol ':', .symbol ':', .symbol '\x7b', .word "Context", .symbol ',',
    .word "Destination", .symbol ',', .word "Request", .symbol '\x7d']

/-- The items above the trait. -/
def preambleItems (router : Router) : List Item :=
  [.mark (allowance "unused_imports"), .use prelude] ++ router.imports.flatMap importItems

/-- The items of the file. -/
def itemsOf (router : Router) : List Item :=
  router.preambleItems
    ++ [.mark (allowance "non_snake_case"), .trait router.name (router.routes.map Route.syntaxOf)]
    ++ [.unit router.utilName]
    ++ [.mark (allowance "non_snake_case"),
      .impl router.name router.utilName
        (router.routes.map fun route => route.methodOf router.destination)]

theorem isPath_importPath {imported : String} (h : IsPath imported) :
    IsPath (importPath imported) := by
  rw [importPath]
  split
  · exact h
  · have hroot : "crate::" = "crate" ++ Text.separator := by decide
    have hcrate : isIdentifier "crate" = true := by decide
    rw [hroot]
    exact .join hcrate h

theorem exists_scansBefore_importPath {imported : String} (h : IsPath imported) :
    ∃ pieces, ScansBefore (importPath imported) pieces ∧ Brackets.ofUse.Balanced pieces := by
  obtain ⟨pieces, hscan, hplain⟩ := (isPath_importPath h).exists_scansBefore
  refine ⟨pieces, hscan, Brackets.balanced_of_isPlain fun piece hpiece => ?_⟩
  exact (hplain piece hpiece).isPlain (by decide) (by decide) (by decide)

theorem isIdentifier_utilName (h : router.HasNames) : isIdentifier router.utilName = true :=
  isIdentifier_append h.name (by decide)

theorem isClear_allowance {lint : String} : (Item.mark (allowance lint)).IsClear :=
  Brackets.balanced_of_isPlain (by simp [allowance, Brackets.IsPlain, Brackets.ofMark])

theorem isClear_prelude : (Item.use prelude).IsClear := by
  have hfront : Brackets.ofUse.Balanced [.word "intention", .symbol ':', .symbol ':'] :=
    Brackets.balanced_of_isPlain (by simp [Brackets.IsPlain, Brackets.ofUse])
  have hinner : Brackets.ofUse.Balanced
      [.word "Context", .symbol ',', .word "Destination", .symbol ',', .word "Request"] :=
    Brackets.balanced_of_isPlain (by simp [Brackets.IsPlain, Brackets.ofUse])
  exact hfront.append (hinner.inside.enclosed (by decide) (by decide))

theorem isClear_importItems {imported : String} (h : IsPath imported) :
    ∀ item ∈ importItems imported, item.IsClear := by
  obtain ⟨pieces, hscan, hbalanced⟩ := exists_scansBefore_importPath h
  intro item hitem
  rw [importItems, List.mem_cons, List.mem_singleton] at hitem
  rcases hitem with rfl | rfl
  · exact isClear_allowance
  · rw [hscan.piecesOf_eq]
    exact hbalanced

theorem isClear_preambleItems (h : router.HasNames) :
    ∀ item ∈ router.preambleItems, item.IsClear := by
  intro item hitem
  rw [preambleItems, List.mem_append, List.mem_cons, List.mem_singleton, List.mem_flatMap] at hitem
  rcases hitem with (rfl | rfl) | ⟨imported, himported, hitem⟩
  · exact isClear_allowance
  · exact isClear_prelude
  · exact isClear_importItems (h.imports imported himported) item hitem

/-- The items of a file can be told from each other. -/
theorem isClear_itemsOf (h : router.HasNames) : ∀ item ∈ router.itemsOf, item.IsClear := by
  intro item hitem
  simp only [itemsOf, List.mem_append, List.mem_cons, List.not_mem_nil, or_false] at hitem
  rcases hitem with ((hitem | rfl | rfl) | rfl) | rfl | rfl
  · exact isClear_preambleItems h item hitem
  · exact isClear_allowance
  · intro signature hsignature
    obtain ⟨route, hroute, rfl⟩ := List.mem_map.1 hsignature
    exact Route.isClear_syntaxOf (h.routes route hroute)
  · trivial
  · exact isClear_allowance
  · intro method hmethod
    obtain ⟨route, hroute, rfl⟩ := List.mem_map.1 hmethod
    exact Route.isClear_methodOf (h.routes route hroute)

/-! ### Lines of files -/

/-- A comment has no pieces. -/
theorem scans_comment {line : String} (h : '\n' ∉ line.toList) :
    Scans ("//" ++ line ++ "\n") [] := by
  intro rest
  have hchars : ("//" ++ line ++ "\n").toList ++ rest =
      '/' :: '/' :: (line.toList ++ '\n' :: rest) := by simp
  rw [hchars, scan_comment h]
  exact Option.map_id'.symm

theorem newline_notMem_qualify (h : router.HasNames) :
    '\n' ∉ (Text.qualify router.package router.name).toList := by
  rw [Text.qualify]
  have hname := newline_notMem_of_isIdentifier h.name
  split
  · exact hname
  · next hne =>
    rcases h.package with hpackage | hpackage
    · rw [hpackage] at hne
      exact absurd rfl hne
    · have hsep : '\n' ∉ Text.separator.toList := by decide
      simp [hpackage.newline_notMem, hsep, hname]

theorem writes_blank : Writes [""] [] := scans_empty.writes

theorem writes_unusedImports : Writes ["#[allow(unused_imports)]"]
    (Item.mark (allowance "unused_imports")).pieces :=
  (scans_of_run rfl).writes

theorem writes_nonSnakeCase : Writes ["#[allow(non_snake_case)]"]
    (Item.mark (allowance "non_snake_case")).pieces :=
  (scans_of_run rfl).writes

theorem writes_import {imported : String} (h : IsPath imported) :
    Writes ["#[allow(unused_imports)]", "use " ++ importPath imported ++ ";"]
      ((importItems imported).flatMap Item.pieces) := by
  obtain ⟨pieces, hscan, -⟩ := exists_scansBefore_importPath h
  have huse : Scans "use " [.word "use"] := scans_of_run rfl
  have hline := (huse.appendBefore hscan).append scans_semicolon rfl
  have hall := writes_unusedImports.append hline.writes
  exact hall.of_eq (by simp [importItems, Item.pieces, hscan.piecesOf_eq])

theorem writes_preamble (h : router.HasNames) :
    Writes router.preamble (router.preambleItems.flatMap Item.pieces) := by
  have hcomment : Writes ["// @generated by intention-compiler from "
      ++ Text.qualify router.package router.name ++ ". Do not edit."] [] := by
    have hfront : "// @generated by intention-compiler from " =
        "//" ++ " @generated by intention-compiler from " := by decide
    -- The two slashes have to stand alone in front of what they comment out.
    rw [hfront, String.append_assoc, String.append_assoc]
    refine writes_of_scans (scans_comment ?_)
    have hname := newline_notMem_qualify h
    simp [hname]
  have hprelude : Writes ["use intention::\x7bContext, Destination, Request\x7d;"]
      (Item.use prelude).pieces := (scans_of_run rfl).writes
  have himports : Writes (router.imports.flatMap fun imported =>
      ["#[allow(unused_imports)]", "use " ++ importPath imported ++ ";"])
        ((router.imports.flatMap importItems).flatMap Item.pieces) := by
    rw [List.flatMap_assoc]
    exact writes_flatMap fun imported himported => writes_import (h.imports imported himported)
  have hall := (((hcomment.append writes_blank).append writes_unusedImports).append
    hprelude).append himports
  exact hall.of_eq (by simp [preambleItems])

theorem writes_traitLines (h : router.HasNames) :
    Writes router.traitLines ([Item.mark (allowance "non_snake_case"),
      .trait router.name (router.routes.map Route.syntaxOf)].flatMap Item.pieces) := by
  have hname : ScansBefore router.name [.word router.name] := scansBefore_word h.name
  have htrait : Scans "pub trait " [.word "pub", .word "trait"] := scans_of_run rfl
  have hclose : Scans "\x7d" [.symbol '\x7d'] := scans_of_run rfl
  have hhead := (htrait.appendBefore hname).append scans_openBrace rfl
  have hsignatures : Writes (router.routes.flatMap fun route => route.signature ";")
      ((router.routes.map Route.syntaxOf).flatMap Signature.declared) := by
    rw [List.flatMap_map]
    exact writes_flatMap fun route hroute =>
      Route.writes_signature (h.routes route hroute) scans_semicolon rfl
  have hall := ((writes_nonSnakeCase.append hhead.writes).append hsignatures).append hclose.writes
  exact hall.of_eq (by simp [Item.pieces])

theorem writes_separated {α : Type} {l : List α} {f : α → List String} {g : α → List Piece}
    (h : ∀ a ∈ l, Writes (f a) (g a)) : Writes (separated (l.map f)) (l.flatMap g) := by
  induction l with
  | nil => exact writes_nil
  | cons a l ih =>
    have hfirst := h a (List.mem_cons_self ..)
    have hrest := ih fun b hb => h b (List.mem_cons_of_mem _ hb)
    -- There is a blank line behind each but the last.
    cases l with
    | nil => exact hfirst.of_eq (by simp)
    | cons b l => exact ((hfirst.append writes_blank).append hrest).of_eq (by simp)

theorem writes_implLines (h : router.HasNames) :
    Writes router.implLines ([Item.mark (allowance "non_snake_case"),
      .impl router.name router.utilName
        (router.routes.map fun route => route.methodOf router.destination)].flatMap
          Item.pieces) := by
  have hname : ScansBefore router.name [.word router.name] := scansBefore_word h.name
  have hutil : ScansBefore router.utilName [.word router.utilName] :=
    scansBefore_word (isIdentifier_utilName h)
  have himpl : Scans "impl " [.word "impl"] := scans_of_run rfl
  have hfor : Scans " for " [.word "for"] := scans_of_run rfl
  have hclose : Scans "\x7d" [.symbol '\x7d'] := scans_of_run rfl
  have htypes := ((himpl.appendBefore hname).append hfor rfl).appendBefore hutil
  have hhead := htypes.append scans_openBrace rfl
  have hmethods : Writes
      (separated (router.routes.map fun route => route.implementation router.destination))
      ((router.routes.map fun route => route.methodOf router.destination).flatMap
        Rust.Method.pieces) := by
    rw [List.flatMap_map]
    exact writes_separated fun route hroute =>
      Route.writes_implementation (h.routes route hroute)
  have hall := ((writes_nonSnakeCase.append hhead.writes).append hmethods).append hclose.writes
  exact hall.of_eq (by simp [Item.pieces])

/-- **A generated file is read as its items.** -/
theorem read_emit (h : router.HasNames) : Rust.read router.emit.source = some router.itemsOf := by
  have hutil : ScansBefore router.utilName [.word router.utilName] :=
    scansBefore_word (isIdentifier_utilName h)
  have hstruct : Scans "pub struct " [.word "pub", .word "struct"] := scans_of_run rfl
  have hunit : Writes ["pub struct " ++ router.utilName ++ ";"]
      (Item.unit router.utilName).pieces :=
    ((hstruct.appendBefore hutil).append scans_semicolon rfl).writes
  have hblocks := ((writes_preamble h).append writes_blank).append (writes_traitLines h)
  have hall := (hblocks.append ((writes_blank.append hunit).append writes_blank)).append
    (writes_implLines h)
  -- The blocks in the order of the file, with the blank lines between them.
  have hlex : lex router.emit.source = some (router.itemsOf.flatMap Item.pieces) := by
    have hlines : router.lines = router.preamble ++ [""] ++ router.traitLines
        ++ ([""] ++ ["pub struct " ++ router.utilName ++ ";"] ++ [""]) ++ router.implLines
        ++ [""] := by simp [lines]
    rw [emit, hlines, hall.lex_eq]
    simp [itemsOf]
  rw [Rust.read, hlex, Option.bind_some, readItems_flatMap (isClear_itemsOf h)]

end Router

end RequestRouter
