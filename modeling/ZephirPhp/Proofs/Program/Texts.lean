import ZephirPhp.Proofs.Program.Survey

/-! # The texts of a program

The names, the contents of literals, the comments and the docblocks in a program, in so
far as they can be shown in the PHP file. The types of casts, the modifiers and the
shortcuts are left out: the file shows modifiers of PHP only, and nothing of the others.
-/

namespace ZephirPhp

def Atom.texts : Atom → List String
  | .int text => [text]
  | .double text => [text]
  | .bool _ => []
  | .null => []
  | .string content => [content]
  | .interpolated content => [content]
  | .char content => [content]
  | .emptyArray => []
  | .constant name => [name]
  | .variable name => [name]
  | .staticProperty className name => [className, name]
  | .staticConstant className name => [className, name]
  | .newType _ => []

def Import.texts (imported : Import) : List String :=
  imported.name :: imported.shortName.toList

/-- The texts of an item itself, before those inside it. -/
def Item.withTexts : Item → List String → List String
  | .expr (.atom _ leaf), _ => leaf.texts
  | .expr (.property _ _ name), inside => name :: inside
  | .expr (.stringProperty _ _ name), inside => name :: inside
  | .expr (.methodCall _ _ name _), inside => name :: inside
  | .expr (.functionCall _ function _), inside => function :: inside
  | .expr (.staticCall _ className name _), inside => className :: name :: inside
  | .expr (.new _ className _ _), inside => className :: inside
  | .expr (.arrow _ name _), inside => name :: inside
  | .expr (.fetch _ target _), inside => target :: inside
  | .parameter own, inside => own.name :: inside
  | .assignment own, inside => own.target :: (own.property.toList ++ inside)
  | .stmt (.forEach _ key value _ _ _), inside => key.toList ++ (value.toList ++ inside)
  | .stmt (.comment _ text), _ => [text]
  | .declaration own, inside => own.name :: inside
  | .handler own, inside => own.classes ++ (own.caught.toList ++ inside)
  | .constant own, inside => own.docblock.toList ++ own.name :: inside
  | .property own, inside => own.docblock.toList ++ own.name :: inside
  | .method own, inside => own.docblock.toList ++ own.name :: inside
  | .entry (.comment _ text), _ => [text]
  | .entry (.namespaceName _ name), _ => [name]
  | .entry (.imports _ imported), _ => imported.flatMap Import.texts
  | .entry (.classDefinition own), inside =>
    own.docblock.toList ++ own.name :: (own.parent.toList ++ own.interfaces ++ inside)
  | .entry (.interfaceDefinition own), inside =>
    own.docblock.toList ++ own.name :: (own.parents ++ inside)
  | .entry (.functionDefinition own), inside => own.docblock.toList ++ own.name :: inside
  | _, inside => inside

def Survey.texts : Survey Unit String :=
  .ofCollect Item.withTexts

def Program.texts (program : Program) : List String :=
  Survey.texts.ofProgram (fun _ => ()) program

end ZephirPhp
