import SecurityFabric.Soundness.Authorization.BatchIndependence
import SecurityFabric.Soundness.Authorization.Lists
import SecurityFabric.Soundness.Authorization.Grants
import SecurityFabric.Soundness.PolicyManagement
import SecurityFabric.Soundness.Outbox.Order
import SecurityFabric.Soundness.UserManagement.Deletion
import SecurityFabric.Soundness.UserManagement.ConcurrentDelete
import SecurityFabric.Soundness.UserManagement.ManagementScope
import SecurityFabric.Soundness.UserManagement.Groups
import SecurityFabric.Soundness.UserManagement.Accounts
import SecurityFabric.Soundness.UserManagement.GroupMembership
import SecurityFabric.Soundness.UserManagement.IdCardLogin
import SecurityFabric.Soundness.Authentication.OneTimeUse
import SecurityFabric.Soundness.ShareMgnt.Codes
import SecurityFabric.Soundness.ShareMgnt.PasswordOracle
import SecurityFabric.Soundness.Authentication.Lockout
import SecurityFabric.Soundness.ShareMgnt.Departments
import SecurityFabric.Soundness.Auditlog.QueryConditions
import SecurityFabric.Soundness.Auditlog.Dumps
import SecurityFabric.Soundness.Authorization.HierarchyViews
import SecurityFabric.Soundness.Authorization.Obligations
import SecurityFabric.Soundness.Authorization.PolicyMerge
import SecurityFabric.Soundness.ShareServer
import SecurityFabric.Soundness.Auditlog.Messages
import SecurityFabric.Soundness.Authentication.Service
import SecurityFabric.Soundness.ShareMgnt.Common
