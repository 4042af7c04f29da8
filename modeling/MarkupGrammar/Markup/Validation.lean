import MarkupGrammar.Document.TreeWalk
import MarkupGrammar.Markup.Stream
import MarkupGrammar.Markup.Tree

/-! # Validating markup

The validation of a document that is given as markup: read as a stream, or as the tree of a
well-formed document. A fault in the stream is found after the events before it have been followed;
a document that is not well-formed has no events at all. -/

namespace MarkupGrammar.Markup

/-- Validates markup that is read as a stream. -/
def validateStream (g : Grammar) (o : ValidationOptions) (markup : String) :
    Except Failure Report :=
  let (events, fault?) := readStream markup
  match ({} : Validation).run g o events, fault? with
  | (.error failure, _), _ => .error failure
  | (.ok (), _), some fault => .error (.markup fault)
  | (.ok (), v), none => (v.finish g o).1

/-- Validates the tree of a well-formed document by a walk over it. -/
def validateTree (g : Grammar) (o : ValidationOptions) (allowsDoctype : Bool) (markup : String) :
    Except Failure Report :=
  match readTree? allowsDoctype markup with
  | none => .error (.markup .malformed)
  | some nodes => ((Validation.receiver g o).validateTree {} nodes).1

end MarkupGrammar.Markup
