import SchemaTypes.Annotation
import SchemaTypes.Assembly
import SchemaTypes.Primitive.Basic
import SchemaTypes.Primitive.Lookup
import SchemaTypes.Text.Dump
import SchemaTypes.Text.Formatter
import SchemaTypes.Text.Quoted
import SchemaTypes.TypeExpr.Basic
import SchemaTypes.TypeExpr.Counting
import SchemaTypes.TypeExpr.Draft
import SchemaTypes.TypeExpr.References
import SchemaTypes.TypeExpr.Render
import SchemaTypes.TypeExpr.Visitor
import SchemaTypes.Proofs.Annotation
import SchemaTypes.Proofs.Names
import SchemaTypes.Proofs.Text.Brackets
import SchemaTypes.Proofs.Text.Dense
import SchemaTypes.Proofs.Text.Dump
import SchemaTypes.Proofs.Text.Quoted
import SchemaTypes.Proofs.Text.Scan
import SchemaTypes.Proofs.Text.Script
import SchemaTypes.Proofs.TypeExpr.Depth
import SchemaTypes.Proofs.TypeExpr.Dump
import SchemaTypes.Proofs.TypeExpr.Heads
import SchemaTypes.Proofs.TypeExpr.Keyword
import SchemaTypes.Proofs.TypeExpr.Limit
import SchemaTypes.Proofs.TypeExpr.Lines
import SchemaTypes.Proofs.TypeExpr.Marks
import SchemaTypes.Proofs.TypeExpr.Nesting
import SchemaTypes.Proofs.TypeExpr.Place
import SchemaTypes.Proofs.TypeExpr.Position
import SchemaTypes.Proofs.TypeExpr.Preorder
import SchemaTypes.Proofs.TypeExpr.Printable
import SchemaTypes.Proofs.TypeExpr.Pruning
import SchemaTypes.Proofs.TypeExpr.Recorder
import SchemaTypes.Proofs.TypeExpr.References
import SchemaTypes.Proofs.TypeExpr.Render
import SchemaTypes.Proofs.TypeExpr.Skeleton
import SchemaTypes.Proofs.TypeExpr.StackWalk
import SchemaTypes.Proofs.TypeExpr.Substitution
import SchemaTypes.Proofs.TypeExpr.Unambiguous
