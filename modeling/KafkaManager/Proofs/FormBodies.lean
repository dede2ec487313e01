import KafkaManager.Proofs.Reachable
import KafkaManager.Proofs.SettingsPage
import KafkaManager.Web.Forms

/-!
# What the forms send

The request of a form comes to the handler it is meant for, about the cluster of
the page and its topic or group, and the handler decodes what was typed.
-/

namespace KafkaManager.Web

open Lib Api

section

variable {T : NumberText}

section

variable {σ : Type} {fields : List (JsonField σ)}

end

end

end KafkaManager.Web
