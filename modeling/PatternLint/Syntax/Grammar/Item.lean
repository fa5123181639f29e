import PatternLint.Syntax.Grammar.Function
import PatternLint.Syntax.Grammar.Use

/-!
This module contains the grammar of items: of files and modules, of implementations and traits, and
of blocks of foreign functions. Some are accepted and not looked into: their rules give `none`.
-/

namespace PatternLint.Syntax.Grammar

open Syntax.Parser

variable {n : Nat} (g : Nested n)

def members (member : Parser n (Option (Tree n))) : Parser n (List (Tree n)) := do
  return (← whileSeen g (Peek.not List.isEmpty) attributed).flatten
where
  attributed : Parser n (List (Tree n)) := do
    let attributes ← outerAttributes g
    match ← member with
    | some tree => return [tree.withAttributes attributes]
    | none => return []

def memberBlock (member : Parser n (Option (Tree n))) : Parser n (List (Tree n)) :=
  delimited .brace do
    let attributes ← innerAttributes g
    return attributes ++ (← members g member)

/-! ### Macros -/

def pathStarts : List String :=
  ["identifier", quote "self", quote "super", quote "crate", quote "::"]

def startsItemMacro : Peek :=
  Peek.any [Peek.ident, oneOf ["self", "super", "crate"], Peek.punct "::"]

def itemMacro (allowName : Bool) : Parser n (Tree n) := do
  let path ← plainPath g
  punct "!"
  if allowName && (← peek (Peek.any [Peek.ident, Peek.keyword "try"])) then
    skip 1
  let (tree, braced) ← macroBody path
  unless braced do punct ";"
  return tree

def macroDefinition : Parser n Unit := do
  keyword "macro"
  let _ ← ident
  if ← peek (Peek.group .parenthesis) then
    skip 1
    unless ← peek (Peek.group .brace) do failExpected ["curly braces"]
  else
    unless ← peek (Peek.group .brace) do failExpected ["parentheses", "curly braces"]
  skip 1

/-! ### Constants, statics and types -/

structure Constant (n : Nat) where
  trees : List (Tree n)
  hasValue : Bool
  -- It has generic parameters or a `where` clause.
  isGeneric : Bool

def constant (constantName : Parser n Name) : Parser n (Constant n) := do
  keyword "const"
  let _ ← constantName
  let generics? ← parameters? g
  punct ":"
  let type ← g.type true
  let value? ← afterPunct? "=" (g.expr true)
  let where? ← whereClause? g
  punct ";"
  return {
    trees := type.tree :: (value?.map Expr.tree).toList
    hasValue := value?.isSome
    isGeneric := generics?.isSome || where?.isSome
  }

def valuedConstant : Parser n (Option (Tree n)) := do
  let c ← constant g nameOrUnderscore
  return if c.hasValue && !c.isGeneric then some (.ofChildren c.trees) else none

def traitConstant : Parser n (Option (Tree n)) := do
  let c ← constant g constantName
  return if c.isGeneric then none else some (.ofChildren c.trees)
where
  constantName : Parser n Name := do
    if ← peek (Peek.any [Peek.ident, Peek.keyword "_"]) then
      anyName
    else
      failExpected <|
        ["identifier"] ++ ["_", "async", "unsafe", "extern", "fn"].map quote

def static : Parser n (Option (Tree n)) := do
  keyword "static"
  let _ ← keyword? "mut"
  let _ ← ident
  if ← punct? "=" then
    let _ ← g.expr true
    punct ";"
    return none
  punct ":"
  let type ← g.type true
  if ← punct? ";" then
    return none
  punct "="
  let value ← g.expr true
  punct ";"
  return some (.ofChildren [type.tree, value.tree])

def foreignStatic : Parser n (Option (Tree n)) := do
  let isUnsafe ← keyword? "unsafe"
  let safe ← if isUnsafe then pure false else keyword? "safe"
  keyword "static"
  let _ ← keyword? "mut"
  let _ ← ident
  punct ":"
  let type ← g.type true
  let value? ← afterPunct? "=" (g.expr true)
  punct ";"
  return if isUnsafe || safe || value?.isSome then none else some (.ofChildren [type.tree])

inductive WherePlace where
  | beforeDefinition
  | afterDefinition
  | either
  deriving DecidableEq

structure TypeAlias (n : Nat) where
  trees : List (Tree n)
  hasBounds : Bool
  hasDefinition : Bool

def typeAlias (place : WherePlace) : Parser n (TypeAlias n) := do
  keyword "type"
  let _ ← ident
  let generics? ← parameters? g
  let stop : Peek := fun trees =>
    Peek.keyword "where" trees || Peek.punct "=" trees || Peek.punct ";" trees
  let bounds? ← afterPunct? ":" (separatedUntil g "+" stop (g.typeBound ⟨false, true⟩))
  let before? ← if place = .afterDefinition then pure none else whereClause? g
  let type? ← afterPunct? "=" (g.type true)
  let after? ←
    if place = .beforeDefinition ∨ before?.isSome then pure none else whereClause? g
  punct ";"
  return {
    trees := generics?.getD [] ++ (bounds?.getD []).map TypeBound.tree ++ before?.getD [] ++
      (type?.map TypeTree.tree).toList ++ after?.getD []
    hasBounds := bounds?.isSome
    hasDefinition := type?.isSome
  }

def definedType (place : WherePlace) : Parser n (Option (Tree n)) := do
  let t ← typeAlias g place
  return if t.hasDefinition && !t.hasBounds then some (.ofChildren t.trees) else none

def traitType : Parser n (Tree n) := do
  return .ofChildren (← typeAlias g .afterDefinition).trees

def foreignType : Parser n (Option (Tree n)) := do
  let t ← typeAlias g .either
  return if t.hasDefinition || t.hasBounds then none else some (.ofChildren t.trees)

/-! ### Structs, enums and unions -/

def startsUnnamedType : Peek := fun trees =>
  Peek.keyword "struct" trees ||
    Peek.keyword "union" trees && Peek.second (Peek.group .brace) trees

def namedFields (fuel : Nat) : Parser n (List (Tree n)) :=
  match fuel with
  | 0 => failTooDeep
  | fuel + 1 => delimited .brace do
    return (← commaSeparated g (field fuel)).flatten
where
  field (fuel : Nat) : Parser n (List (Tree n)) := do
    let attributes ← outerAttributes g
    let _ ← visibility g
    let unnamed ← keyword? "_"
    unless unnamed do
      let _ ← ident
    punct ":"
    if unnamed && (← peek startsUnnamedType) then
      skip 1
      let _ ← namedFields fuel
      return attributes
    else
      return attributes ++ [(← g.type true).tree]

def unnamedFields : Parser n (List (Tree n)) :=
  delimited .parenthesis do
    return (← commaSeparated g field).flatten
where
  field : Parser n (List (Tree n)) := do
    let attributes ← outerAttributes g
    let _ ← visibility g
    return attributes ++ [(← g.type true).tree]

def struct : Parser n (Tree n) := do
  keyword "struct"
  let name ← name
  let generics? ← parameters? g
  let before? ← whereClause? g
  let front := generics?.getD [] ++ before?.getD []
  if before?.isNone && (← peek (Peek.group .parenthesis)) then
    let fields ← unnamedFields g
    let after? ← whereClause? g
    unless ← punct? ";" do
      failExpected (if after?.isSome then [quote ";"] else [quote "where", quote ";"])
    return .node (.struct name) (front ++ fields ++ after?.getD [])
  else if ← peek (Peek.group .brace) then
    return .node (.struct name) (front ++ (← namedFields g g.steps))
  else if ← punct? ";" then
    return .node (.struct name) front
  else
    failExpected <|
      (if before?.isSome then [] else [quote "where", "parentheses"]) ++ ["curly braces", quote ";"]

def variant : Parser n (List (Tree n)) := do
  let attributes ← outerAttributes g
  let _ ← visibility g
  let _ ← ident
  let fields ←
    if ← peek (Peek.group .brace) then
      namedFields g g.steps
    else if ← peek (Peek.group .parenthesis) then
      unnamedFields g
    else
      pure []
  let discriminant ← afterPunct? "=" (g.expr true)
  return attributes ++ fields ++ (discriminant.map Expr.tree).toList

def enum : Parser n (Tree n) := do
  keyword "enum"
  let name ← name
  let generics? ← parameters? g
  let where? ← whereClause? g
  let variants ← delimited .brace (commaSeparated g (variant g))
  return .node (.enum name) (generics?.getD [] ++ where?.getD [] ++ variants.flatten)

def union : Parser n (Tree n) := do
  keyword "union"
  let _ ← ident
  let generics? ← parameters? g
  let where? ← whereClause? g
  let fields ← namedFields g g.steps
  return .ofChildren (generics?.getD [] ++ where?.getD [] ++ fields)

/-! ### Members of traits, implementations and foreign blocks -/

def traitMember : Parser n (Option (Tree n)) := do
  let isPublic ← visibility g
  let isDefault ← keyword? "default"
  let trees ← ahead
  let marked := isPublic || isDefault
  let tree? ←
    if startsFunction false trees then
      some <$> traitFunction g
    else if Peek.keyword "const" trees then
      traitConstant g
    else if Peek.keyword "type" trees then
      some <$> traitType g
    else if !marked && startsItemMacro trees then
      some <$> itemMacro g false
    else
      failExpected <|
        [quote "fn", quote "const", quote "type"] ++ (if marked then [] else pathStarts)
  -- a mark is accepted, but the member is then not looked into
  return if marked then none else tree?

def implMember : Parser n (Option (Tree n)) := do
  let isPublic ← visibility g
  let mayDefault ← peek (Peek.keyword "default")
  let isDefault ←
    if ← peek (Peek.and (Peek.keyword "default") (Peek.second (Peek.not (Peek.punct "!")))) then
      keyword? "default"
    else
      pure false
  let trees ← ahead
  let marked := isPublic || isDefault
  if startsFunction false trees then
    function g
  else if Peek.keyword "const" trees then
    valuedConstant g
  else if Peek.keyword "type" trees then
    definedType g .afterDefinition
  else if !marked && startsItemMacro trees then
    some <$> itemMacro g false
  else
    failExpected <|
      (if mayDefault then [] else [quote "default"]) ++ [quote "fn", quote "const", quote "type"] ++
        (if marked then [] else pathStarts)

def foreignMember : Parser n (Option (Tree n)) := do
  let isPublic ← visibility g
  let trees ← ahead
  let startsStatic :=
    Peek.keyword "static" trees ||
      oneOf ["unsafe", "safe"] trees && Peek.second (Peek.keyword "static") trees
  if startsFunction true trees then
    foreignFunction g
  else if startsStatic then
    foreignStatic g
  else if Peek.keyword "type" trees then
    foreignType g
  else if !isPublic && startsItemMacro trees then
    some <$> itemMacro g false
  else
    failExpected <|
      [quote "fn", quote "static", quote "type"] ++ (if isPublic then [] else pathStarts)

/-! ### Traits, implementations, modules and foreign blocks -/

def traitBody (name : Name) (generics : List (Tree n)) : Parser n (Tree n) := do
  let stop := Peek.any [Peek.keyword "where", Peek.group .brace]
  let bounds? ← afterPunct? ":" (separatedUntil g "+" stop (g.typeBound ⟨false, true⟩))
  let where? ← whereClause? g
  let body ← memberBlock g (traitMember g)
  let front := generics ++ (bounds?.getD []).map TypeBound.tree ++ where?.getD []
  return .node (.trait name) (front ++ body)

def trait : Parser n (Tree n) := do
  keyword "trait"
  let name ← name
  let generics? ← parameters? g
  traitBody g name (generics?.getD [])

def traitOrAlias : Parser n (Tree n) := do
  keyword "trait"
  let name ← name
  let generics? ← parameters? g
  let generics := generics?.getD []
  let trees ← ahead
  if Peek.group .brace trees || Peek.punct ":" trees || Peek.keyword "where" trees then
    traitBody g name generics
  else if ← punct? "=" then
    let stop := Peek.any [Peek.keyword "where", Peek.punct ";"]
    let bounds ← separatedUntil g "+" stop (g.typeBound ⟨false, true⟩)
    let where? ← whereClause? g
    punct ";"
    return .ofChildren (generics ++ bounds.map TypeBound.tree ++ where?.getD [])
  else
    failExpected ["curly braces", quote ":", quote "where", quote "="]

def implementation (isPublic : Bool) : Parser n (Option (Tree n)) := do
  let _ ← keyword? "default"
  let _ ← keyword? "unsafe"
  keyword "impl"
  let generics ← if ← peek startsGenerics then parameters g else pure []
  let isConst ← constness
  let start ← location
  let negative ←
    if ← peek (Peek.and (Peek.punct "!") (Peek.second (Peek.not (Peek.group .brace)))) then
      punct? "!"
    else
      pure false
  let first ← g.type true
  let self? ← afterKeyword? "for" (g.type true)
  if negative && self?.isNone then
    failAt start (.rule "inherent impls cannot be negative")
  let where? ← whereClause? g
  let body ← memberBlock g (implMember g)
  let isTrait := match first.form with
    | .path _ => true
    | _ => false
  -- with a visibility or a constant trait, or of no trait's path, it is not looked into
  if isPublic || isConst || self?.isSome && !isTrait then
    return none
  else
    let types := first.tree :: (self?.map TypeTree.tree).toList
    return some (.ofChildren (generics ++ types ++ where?.getD [] ++ body))
where
  constness : Parser n Bool := do
    if ← keyword? "const" then
      return true
    else if ← peek (Peek.and (Peek.punct "?") (Peek.second (Peek.keyword "const"))) then
      skip 2
      return true
    else
      return false

def module : Parser n (Tree n) := do
  let _ ← keyword? "unsafe"
  keyword "mod"
  if ← peek (Peek.keyword "try") then
    skip 1
  else
    let _ ← ident
  if ← punct? ";" then
    return .ofChildren []
  else if ← peek (Peek.group .brace) then
    return .ofChildren (← memberBlock g g.item)
  else
    failExpected [quote ";", "curly braces"]

def foreignBlock : Parser n (Tree n) := do
  let _ ← keyword? "unsafe"
  unless ← abi? do failExpected [quote "extern"]
  return .ofChildren (← memberBlock g (foreignMember g))

def externCrate : Parser n (Tree n) := do
  keyword "extern"
  keyword "crate"
  unless ← keyword? "self" do
    let _ ← ident
  if ← keyword? "as" then
    unless ← keyword? "_" do
      let _ ← ident
  punct ";"
  return .ofChildren []

def foreignItem (start : Location) (isPublic : Bool) : Parser n (Tree n) := do
  if isPublic then
    failAt start (.expected [quote "extern"])
  foreignBlock g

def externItem (start : Location) (isPublic : Bool) : Parser n (Tree n) := do
  let trees ← ahead
  if Peek.second (Peek.keyword "crate") trees then
    externCrate
  else if Peek.second (Peek.group .brace) trees then
    foreignItem g start isPublic
  else if Peek.second Peek.string trees then
    if Peek.third (Peek.group .brace) trees then
      foreignItem g start isPublic
    else
      skip 2
      failExpected ["curly braces"]
  else
    skip 1
    failExpected [quote "crate", "curly braces", "string literal"]

def unsafeItem (start : Location) (isPublic : Bool) : Parser n (Option (Tree n)) := do
  let trees := (← ahead).drop 1
  if Peek.keyword "trait" trees ||
      Peek.and (Peek.keyword "auto") (Peek.second (Peek.keyword "trait")) trees then
    skip 1
    let _ ← keyword? "auto"
    some <$> trait g
  else if Peek.keyword "impl" trees then
    implementation g isPublic
  else if Peek.keyword "extern" trees then
    some <$> foreignItem g start isPublic
  else if Peek.keyword "mod" trees then
    some <$> module g
  else
    skip 1
    failExpected [quote "trait", quote "auto", quote "impl", quote "extern", quote "mod"]

def itemStarts : List String :=
  ["fn", "extern", "use", "static", "const", "unsafe", "mod", "type", "struct", "enum", "union",
    "trait", "auto", "impl", "default", "macro"]

def item : Parser n (Option (Tree n)) := do
  let start ← location
  let isPublic ← visibility g
  let trees ← ahead
  if startsFunction false trees then
    function g
  else if Peek.keyword "extern" trees then
    some <$> externItem g start isPublic
  else if Peek.keyword "use" trees then
    useDeclaration g
  else if Peek.keyword "static" trees then
    static g
  else if Peek.keyword "const" trees then
    valuedConstant g
  else if Peek.keyword "unsafe" trees then
    unsafeItem g start isPublic
  else if Peek.keyword "mod" trees then
    some <$> module g
  else if Peek.keyword "type" trees then
    definedType g .beforeDefinition
  else if Peek.keyword "struct" trees then
    some <$> struct g
  else if Peek.keyword "enum" trees then
    some <$> enum g
  else if Peek.and (Peek.keyword "union") (Peek.second Peek.ident) trees then
    some <$> union g
  else if Peek.keyword "trait" trees then
    some <$> traitOrAlias g
  else if Peek.and (Peek.keyword "auto") (Peek.second (Peek.keyword "trait")) trees then
    skip 1
    some <$> trait g
  else if Peek.keyword "impl" trees ||
      Peek.and (Peek.keyword "default") (Peek.second (Peek.not (Peek.punct "!"))) trees then
    implementation g isPublic
  else if Peek.keyword "macro" trees then
    macroDefinition
    return none
  else if !isPublic && startsItemMacro trees then
    some <$> itemMacro g true
  else
    let absent := itemStarts.filter fun word => !Peek.keyword word trees
    failExpected (absent.map quote ++ (if isPublic then [] else pathStarts))

end PatternLint.Syntax.Grammar
