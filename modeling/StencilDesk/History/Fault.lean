import StencilDesk.Bundle.Path
import StencilDesk.History.Serial

/-!
# Faults of the store

Why the store of versions does not answer. What the operating system has to say about a failure,
or why exactly a stored text cannot be read, is not part of a fault.
-/

namespace StencilDesk

inductive StoreFault where
  /-- A file or folder cannot be read or written. -/
  | access
  /-- A stored text cannot be read, or a version cannot be written. -/
  | format
  | stencilNotFound (id : String)
  | versionNotFound (serial : Serial)
  | missingMainConfig (id : String)
  | invalidPath (fault : PathFault)
  | duplicatePath (path : String)
  | invalidSerial (fault : SerialFault)
  | invalidStencilId (id : String)
  | rejected (reason : String)
deriving DecidableEq, Repr

namespace StoreFault

def message : StoreFault → String
  | access => "I/O error:"
  | format => "Serialization/Deserialization error:"
  | stencilNotFound id => s!"Stencil not found: {id}"
  | versionNotFound serial => s!"Version not found: {serial.text}"
  | missingMainConfig id => s!"Stencil {id} has no main configuration file (/stencil.yml)"
  | invalidPath fault => fault.message
  | duplicatePath path => s!"Bundle contains {path} more than once"
  | invalidSerial fault => fault.message
  | invalidStencilId id =>
      s!"Invalid stencil id: {id}. Contains invalid characters or is empty."
  | rejected reason => s!"Save rejected: {reason}"

def hasSource : StoreFault → Bool
  | access | format | invalidPath _ | invalidSerial _ => true
  | _ => false

end StoreFault

end StencilDesk
