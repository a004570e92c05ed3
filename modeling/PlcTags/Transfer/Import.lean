import PlcTags.Container.Codec
import PlcTags.Service.Call

/-!
# Importing containers

A container is read completely before anything of it is merged: one that is malformed
anywhere changes nothing.
-/

namespace PlcTags

/-- Why nothing was imported or exported. -/
inductive TransferError where
  | malformed (fault : Container.Error)
  | failed (failure : Failure)
  deriving DecidableEq, Repr

namespace Service

/-- Starts the import of a vendor's container into a project.  If the format is not given
it is told from the first bytes. -/
def importContainer (service : Service) (project : Int) (vendor : Vendor)
    (format : Option Container.Format) (bytes : ByteArray) :
    Except Container.Error Service :=
  match Container.decode vendor (format.getD (Container.Format.sniff bytes)) bytes with
  | .ok content => .ok (service.importTags project vendor content.tags content.issues)
  | .error fault => .error fault

end Service

end PlcTags
