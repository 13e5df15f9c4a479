import Resumable.Weave.WovenUnit
import Resumable.Json.Printer
import Resumable.Json.Reader

/-!
# Units, metadata and configuration as text

Each value is written as JSON text and read back from it.  Reading gives nothing
when the text is not JSON or not of the form that is written.
-/

namespace Resumable

def WovenUnit.toText (u : WovenUnit) : String := u.toJson.pretty

def WovenUnit.ofText? (text : String) : Option WovenUnit :=
  (Json.ofText? text).bind WovenUnit.ofJson?

def CompilationUnit.toText (u : CompilationUnit) : String := u.toJson.pretty

def CompilationUnit.ofText? (text : String) : Option CompilationUnit :=
  (Json.ofText? text).bind CompilationUnit.ofJson?

def Procedure.toText (p : Procedure) : String := p.toJson.pretty

def Procedure.ofText? (text : String) : Option Procedure :=
  (Json.ofText? text).bind Procedure.ofJson?

def ExternalMetadata.toText (m : ExternalMetadata) : String := m.toJson.pretty

def ExternalMetadata.ofText? (text : String) : Option ExternalMetadata :=
  (Json.ofText? text).bind ExternalMetadata.ofJson?

def AnalysisConfig.toText (c : AnalysisConfig) : String := c.toJson.pretty

def AnalysisConfig.ofText? (text : String) : Option AnalysisConfig :=
  (Json.ofText? text).bind AnalysisConfig.ofJson?

end Resumable
