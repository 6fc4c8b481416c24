import Wiring.Yaml.Document

/-! What reading a file can end with. A reader promises a mapping or a failure of the document; from
a YAML file two more failures come through. -/
namespace Wiring

namespace FormatRule

variable {location : String} {e : Failure}

end FormatRule

namespace Format

end Format

namespace FileDocuments
variable {s : FileDocuments} {path : String}

end FileDocuments
end Wiring
