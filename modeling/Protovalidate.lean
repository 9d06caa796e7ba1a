import Protovalidate.TypeSafety
import Protovalidate.Resolved
import Protovalidate.MapOrder
import Protovalidate.Host
import Protovalidate.Uri
import Protovalidate.Unique
import Protovalidate.Registration
import Protovalidate.RuleValues
import Protovalidate.Settled
import Protovalidate.CelOutcomes
import Protovalidate.ZeroItems
import Protovalidate.Durations
import Protovalidate.FieldMasks
import Protovalidate.FieldPathText
import Protovalidate.Text
import Protovalidate.Views
import Protovalidate.EncodeTests
import Protovalidate.Chronology
import Protovalidate.Serialized
import Protovalidate.Trees
import Protovalidate.WithoutCel
import Protovalidate.BindingsSettled
import Protovalidate.CelBackend
import Protovalidate.Handles
import Protovalidate.Nested
import Protovalidate.FieldValues
import Protovalidate.Lib.Alphabets
import Protovalidate.Lib.Languages
import Protovalidate.Names
import Protovalidate.Numbers
