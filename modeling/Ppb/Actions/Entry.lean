import Ppb.Automation.Routes
import Ppb.Rooms.Routes

/-!
# Requests

The endpoints that make PMP do something: six that submit commands to the broker
and two that send free text to the PMP console. `Request.handler` runs any of them
and returns the HTTP status of the response; a handler that fails answers with
the status of its error.
-/

namespace Ppb.Actions

open Rooms

/-- A request to one of the endpoints that submit commands. -/
inductive EntryPoint where
  | executeAction (actionId : String) (args : Json)
  | executeRoomAction (roomId actionId : String) (args : Json)
  | adminRoomAction (roomId actionId : String) (args : Json)
  | adminRoomActionsBatch (body : RoomBatchBody)
  | userActions (userId : Int64) (actionId : String) (args : Json)
  | runbookRun (id : Uuid) (body : Option (Except Unit Json))

/-- The handler of a request, with the HTTP status of its response. -/
def EntryPoint.handler (state : AppState) (auth : AuthPrincipal) (headers : Headers) :
    EntryPoint → Server ℕ
  | .executeAction actionId args => do
    let response ← Actions.executeAction state auth headers actionId args
    return response.status
  | .executeRoomAction roomId actionId args => do
    let response ← Rooms.executeRoomAction state auth headers roomId actionId args
    return response.status
  | .adminRoomAction roomId actionId args => do
    let response ← Rooms.adminRoomAction state auth headers roomId actionId args
    return response.status
  | .adminRoomActionsBatch body => do
    let _ ← Rooms.adminRoomActionsBatch state auth headers body
    return 200
  | .userActions userId actionId args => do
    let response ← Actions.userActions state auth headers userId actionId args
    return response.status
  | .runbookRun id body => do
    let _ ← Automation.run state auth headers id body
    return 200

/-- A request to one of these endpoints, or to a console endpoint. -/
inductive Request where
  | entry (e : EntryPoint)
  /-- `POST /admin/commands/execute` -/
  | executeCommand (command : String)
  /-- `POST /admin/logs/input` -/
  | submitInput (command : String)

/-- The handler of a request, with the HTTP status of its response. -/
def Request.handler (state : AppState) (auth : AuthPrincipal) (headers : Headers) :
    Request → Server ℕ
  | .entry e => e.handler state auth headers
  | .executeCommand command => do
    let _ ← Actions.executeCommand state auth headers command
    return 200
  | .submitInput command => do
    let _ ← Actions.submitInput state auth headers command
    return 200

/-- The HTTP status a handler's end is answered with. -/
def responseStatus : Except ApiError ℕ → ℕ
  | .ok status => status
  | .error e => e.status

end Ppb.Actions
