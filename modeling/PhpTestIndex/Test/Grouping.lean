import PhpTestIndex.Test.Definition

/-!
# Grouping by namespace

`Definition.groupByNamespace` puts classes under nodes for their namespaces.  Classes that follow
each other in the same namespace share a node; a namespace that comes back after something else gets
a new one, so a node covers no foreign class.  The depth of every node is set at the end.
-/

namespace PhpTestIndex.Definition

/-- The node is the node of a namespace. -/
def isNamespace (definition : Definition) (name : String) : Bool :=
  definition.kind = .namespaceSuite && definition.id = name

/-- Add a class to roots that are given from the last to the first. -/
def addToRoots (file : String) (roots : List Definition) (definition : Definition) :
    List Definition :=
  match definition.inNamespace with
  | none => definition :: roots
  | some name =>
    let alone := { ofNamespace name file definition.span with children := [definition] }
    match roots with
    | [] => [alone]
    | root :: earlier =>
      if root.isNamespace name then
        { root with
          span := ⟨root.span.start, definition.span.stop⟩
          children := root.children ++ [definition] } :: earlier
      else alone :: root :: earlier

/-- Put classes under nodes for their namespaces, in order. -/
def groupByNamespace (file : String) (classes : List Definition) : List Definition :=
  assignForestDepth 0 (classes.foldl (addToRoots file) []).reverse

end PhpTestIndex.Definition
