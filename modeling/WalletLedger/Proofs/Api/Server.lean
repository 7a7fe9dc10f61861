import WalletLedger.Api.Server
import WalletLedger.Proofs.Api.Program
import WalletLedger.Proofs.Api.Resource

/-!
# From requests to handlers and back

A request with the path and a method of a resource is answered by the handler of that
resource, and what the handler says is only completed on its way out.
-/

namespace WalletLedger
namespace Api
namespace Server

open Http (Request Response)

variable (server : Server) (r : Request)

/-!
# The way in
-/

theorem route_of_names {resource : Resource} {r : Request} (hpath : resource.Names r.path)
    (hoptions : r.method ≠ .options) (hmethod : resource.accepts r.method = true) :
    server.route r = server.handle r resource := by
  unfold route
  simp only [Resource.ofPath?_of_names hpath, if_neg hoptions, if_pos hmethod]

theorem guarded_of_authorizes {server : Server} {r : Request} (h : server.authorizes r = true)
    (handler : Program Response) : server.guarded r handler = handler := by
  unfold guarded
  rw [if_pos h]

theorem guarded_of_not_authorizes {server : Server} {r : Request}
    (h : server.authorizes r = false) (handler : Program Response) :
    server.guarded r handler = .done Refusal.badToken.response := by
  unfold guarded
  rw [h]
  rfl

/-!
# The way out
-/

theorem allowOrigin_status (reply : Response) :
    (server.allowOrigin r reply).status = reply.status := by
  unfold allowOrigin
  split
  · split <;> rfl
  · rfl

theorem allowOrigin_body (reply : Response) :
    (server.allowOrigin r reply).body = reply.body := by
  unfold allowOrigin
  split
  · split <;> rfl
  · rfl

theorem finish_status (reply : Response) : (server.finish r reply).status = reply.status := by
  rw [← server.allowOrigin_status r reply]
  unfold finish
  simp only
  split <;> rfl

/-- Only a request for the head alone loses the body of its reply. -/
theorem finish_body (reply : Response) :
    (server.finish r reply).body = if r.method = .head then .empty else reply.body := by
  rw [← server.allowOrigin_body r reply]
  unfold finish
  simp only
  split <;> rfl

end Server
end Api
end WalletLedger
